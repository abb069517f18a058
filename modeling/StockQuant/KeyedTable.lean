import Mathlib.Data.List.Nodup
import Mathlib.Data.List.NodupEquivFin

/-! Tables whose rows have a unique key, as a database keeps them under a primary
key or a unique constraint. -/

namespace KeyedTable

structure Table {α κ : Type*} (key : α → κ) where
  rows : List α
  nodup : (rows.map key).Nodup

namespace Table

variable {α κ : Type*} {key : α → κ}

theorem ext_rows {t u : Table key} (h : t.rows = u.rows) : t = u := by
  cases t
  cases u
  congr

instance [DecidableEq α] : DecidableEq (Table key) := fun _ _ =>
  decidable_of_iff _ ⟨ext_rows, congrArg Table.rows⟩

instance : EmptyCollection (Table key) := ⟨⟨[], List.nodup_nil⟩⟩

theorem eq_of_key {t : Table key} {r s : α} (hr : r ∈ t.rows) (hs : s ∈ t.rows)
    (h : key r = key s) : r = s :=
  List.inj_on_of_nodup_map t.nodup hr hs h

def map (t : Table key) (f : α → α) (hf : ∀ r, key (f r) = key r) : Table key where
  rows := t.rows.map f
  nodup := by
    rw [List.map_map, Function.comp_def]
    simpa only [hf] using t.nodup

@[simp] theorem rows_map (t : Table key) (f : α → α) (hf : ∀ r, key (f r) = key r) :
    (t.map f hf).rows = t.rows.map f := rfl

variable [DecidableEq κ]

def get? (t : Table key) (k : κ) : Option α := t.rows.find? (fun r => key r = k)

theorem get?_eq_some_iff {t : Table key} {k : κ} {r : α} :
    t.get? k = some r ↔ r ∈ t.rows ∧ key r = k := by
  constructor
  · intro h
    exact ⟨List.mem_of_find?_eq_some h, by simpa using List.find?_some h⟩
  · rintro ⟨hm, rfl⟩
    cases hf : t.get? (key r) with
    | none => simpa using List.find?_eq_none.mp hf r hm
    | some s =>
      have hs : key s = key r := by simpa using List.find?_some hf
      rw [eq_of_key (List.mem_of_find?_eq_some hf) hm hs]

theorem get?_eq_none_iff {t : Table key} {k : κ} :
    t.get? k = none ↔ ∀ r ∈ t.rows, key r ≠ k := by
  simp [get?, List.find?_eq_none]

theorem get?_of_mem {t : Table key} {r : α} (h : r ∈ t.rows) : t.get? (key r) = some r :=
  get?_eq_some_iff.mpr ⟨h, rfl⟩

@[simp] theorem get?_map (t : Table key) (f : α → α) (hf : ∀ r, key (f r) = key r) (k : κ) :
    (t.map f hf).get? k = (t.get? k).map f := by
  simp only [get?, rows_map, List.find?_map, Function.comp_def, hf]

/-- The unique constraint as it is checked when rows are written: `none` is the
integrity error. -/
def ofRows? (rows : List α) : Option (Table key) :=
  if h : (rows.map key).Nodup then some ⟨rows, h⟩ else none

theorem ofRows?_eq_some_iff {rows : List α} {t : Table key} :
    ofRows? rows = some t ↔ t.rows = rows := by
  unfold ofRows?
  split
  · next h =>
    rw [Option.some.injEq]
    exact ⟨fun he => he ▸ rfl, fun he => ext_rows he.symm⟩
  · next h =>
    simp only [reduceCtorEq, false_iff]
    rintro rfl
    exact h t.nodup

theorem ofRows?_snoc {t : Table key} {r : α} (h : t.get? (key r) = none) :
    ∃ t' : Table key, ofRows? (t.rows ++ [r]) = some t' ∧
      ∀ k, t'.get? k = if k = key r then some r else t.get? k := by
  have hnodup : ((t.rows ++ [r]).map key).Nodup := by
    rw [List.map_append, List.nodup_append]
    refine ⟨t.nodup, by simp, fun k hk k' hk' => ?_⟩
    obtain ⟨s, hs, rfl⟩ := List.mem_map.mp hk
    obtain rfl : k' = key r := by simpa using hk'
    exact get?_eq_none_iff.mp h s hs
  refine ⟨⟨_, hnodup⟩, ofRows?_eq_some_iff.mpr rfl, fun k => ?_⟩
  unfold get? at h ⊢
  rw [List.find?_append]
  split_ifs with hk
  · subst hk
    simp [h]
  · have hne : key r ≠ k := fun heq => hk heq.symm
    simp [hne]

theorem ofRows?_replace {t : Table key} {old r : α} (hold : t.get? (key r) = some old) :
    ∃ t' : Table key,
      ofRows? (t.rows.map fun row => if key row = key old then r else row) = some t' ∧
        ∀ k, t'.get? k = if k = key r then some r else t.get? k := by
  have hkey : key old = key r := (get?_eq_some_iff.mp hold).2
  have hsame : ∀ row, key (if key row = key old then r else row) = key row := by
    intro row
    split_ifs with h
    · rw [h, hkey]
    · rfl
  refine ⟨t.map _ hsame, ofRows?_eq_some_iff.mpr rfl, fun k => ?_⟩
  rw [get?_map]
  split_ifs with hk
  · subst hk
    simp [hold, hkey]
  · cases hget : t.get? k with
    | none => rfl
    | some row =>
      have hrow := (get?_eq_some_iff.mp hget).2
      simp [hrow, hkey, hk]

theorem get?_of_rows_filter {t t' : Table key} {gone : κ}
    (h : t'.rows = t.rows.filter (key · ≠ gone)) (k : κ) :
    t'.get? k = if k = gone then none else t.get? k := by
  unfold get?
  rw [h, List.find?_filter]
  split_ifs with hk
  · subst hk
    exact List.find?_eq_none.mpr fun r _ => by simp
  · refine congrArg (List.find? · t.rows) (funext fun r => ?_)
    by_cases hr : key r = k
    · simp [hr, hk]
    · simp [hr]

end Table

end KeyedTable
