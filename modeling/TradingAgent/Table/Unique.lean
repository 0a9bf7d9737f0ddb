import Mathlib.Data.List.Nodup

/-!
# Tables with unique columns

A table is a list of rows in which the primary key and one further column are unique. An
insertion that would repeat either is refused, and a modification of rows keeps both
columns. Because the columns are unique, a row that is found by one of them is the only one
with that value (`findKey_eq_some`, `findColumn_eq_some`).
-/

namespace Table

variable {Row Key Column : Type} {key : Row → Key} {column : Row → Column}

structure Unique (key : Row → Key) (column : Row → Column) where
  rows : List Row
  keys : (rows.map key).Nodup
  columns : (rows.map column).Nodup

/-- Where a column is unique, the first row with a value is the row with that value. -/
theorem find_eq_some {rows : List Row} [DecidableEq Column] (hColumn : (rows.map column).Nodup)
    {value : Column} {row : Row} :
    (rows.find? fun other => column other = value) = some row ↔
      row ∈ rows ∧ column row = value := by
  constructor
  · intro h
    exact ⟨List.mem_of_find?_eq_some h, by simpa using List.find?_some h⟩
  · rintro ⟨hRow, hValue⟩
    cases hFound : rows.find? fun other => column other = value with
    | none =>
      have hNever := List.find?_eq_none.mp hFound row hRow
      exact absurd (decide_eq_true hValue) hNever
    | some found =>
      have hSame : column found = value := by simpa using List.find?_some hFound
      have hMem := List.mem_of_find?_eq_some hFound
      rw [List.inj_on_of_nodup_map hColumn hMem hRow (hSame.trans hValue.symm)]

/-- A change of rows that keeps a column keeps its values in order. -/
theorem map_kept {rows : List Row} {f : Row → Row} (hKept : ∀ row, column (f row) = column row) :
    (rows.map f).map column = rows.map column := by
  rw [List.map_map]
  exact List.map_congr_left fun row _ => hKept row

namespace Unique

variable (t : Unique key column)

def empty : Unique key column where
  rows := []
  keys := List.nodup_nil
  columns := List.nodup_nil

/-- Change rows without touching the unique columns. -/
def modify (f : Row → Row) (hKey : ∀ row, key (f row) = key row)
    (hColumn : ∀ row, column (f row) = column row) : Unique key column where
  rows := t.rows.map f
  keys := by
    rw [map_kept hKey]
    exact t.keys
  columns := by
    rw [map_kept hColumn]
    exact t.columns

variable [DecidableEq Key] [DecidableEq Column]

def findKey (value : Key) : Option Row := t.rows.find? fun row => key row = value

def findColumn (value : Column) : Option Row := t.rows.find? fun row => column row = value

/-- Add a row, unless it repeats a unique value. -/
def insert (row : Row) : Option (Unique key column) :=
  if h : key row ∉ t.rows.map key ∧ column row ∉ t.rows.map column then
    some
      { rows := t.rows ++ [row]
        keys := by simpa [List.nodup_append, t.keys] using h.1
        columns := by simpa [List.nodup_append, t.columns] using h.2 }
  else none

/-- Put a row in the place of the row with its key, unless another row has its value. -/
def replace (row : Row) : Option (Unique key column) :=
  if h : ∀ other ∈ t.rows, column other = column row → key other = key row then
    some
      { rows := t.rows.map fun other => if key other = key row then row else other
        keys := by
          rw [map_kept fun other => by split <;> simp_all]
          exact t.keys
        columns := by
          rw [List.map_map]
          refine List.Nodup.map_on (fun a ha b hb hSame => ?_) t.keys.of_map
          have hKey : key a = key b → a = b := fun hKeys =>
            List.inj_on_of_nodup_map t.keys ha hb hKeys
          simp only [Function.comp_apply] at hSame
          split at hSame
          · next hA =>
            split at hSame
            · next hB => exact hKey (hA.trans hB.symm)
            · exact hKey (hA.trans (h b hb hSame.symm).symm)
          · split at hSame
            · next hB => exact hKey ((h a ha hSame).trans hB.symm)
            · exact List.inj_on_of_nodup_map t.columns ha hb hSame }
  else none

/-- Replace the row with this key, or add the row if there is none. -/
def put (row : Row) : Option (Unique key column) :=
  if (t.findKey (key row)).isSome then t.replace row else t.insert row

variable {t}

omit [DecidableEq Column] in
theorem findKey_eq_some {value : Key} {row : Row} :
    t.findKey value = some row ↔ row ∈ t.rows ∧ key row = value :=
  find_eq_some t.keys

omit [DecidableEq Key] in
theorem findColumn_eq_some {value : Column} {row : Row} :
    t.findColumn value = some row ↔ row ∈ t.rows ∧ column row = value :=
  find_eq_some t.columns

/-- A row is added exactly when its unique values are new. -/
theorem insert_eq_some {row : Row} {t' : Unique key column} :
    t.insert row = some t' ↔
      (key row ∉ t.rows.map key ∧ column row ∉ t.rows.map column) ∧
        t'.rows = t.rows ++ [row] := by
  unfold insert
  constructor
  · intro h
    split at h
    · rename_i hNew
      obtain rfl := Option.some.inj h
      exact ⟨hNew, rfl⟩
    · cases h
  · rintro ⟨hNew, hRows⟩
    rw [dif_pos hNew]
    obtain ⟨rows, keys, columns⟩ := t'
    obtain rfl : rows = t.rows ++ [row] := hRows
    rfl

theorem insert_eq_none {row : Row} :
    t.insert row = none ↔ key row ∈ t.rows.map key ∨ column row ∈ t.rows.map column := by
  unfold insert
  split
  · rename_i hNew
    refine iff_of_false (by simp) ?_
    rintro (hKey | hColumn)
    · exact hNew.1 hKey
    · exact hNew.2 hColumn
  · rename_i hTaken
    apply iff_of_true rfl
    by_contra hNone
    exact hTaken (not_or.mp hNone)

theorem replace_eq_some {row : Row} {t' : Unique key column} :
    t.replace row = some t' ↔
      (∀ other ∈ t.rows, column other = column row → key other = key row) ∧
        t'.rows = t.rows.map fun other => if key other = key row then row else other := by
  unfold replace
  constructor
  · intro h
    split at h
    · rename_i hFree
      obtain rfl := Option.some.inj h
      exact ⟨hFree, rfl⟩
    · cases h
  · rintro ⟨hFree, hRows⟩
    rw [dif_pos hFree]
    obtain ⟨rows, keys, columns⟩ := t'
    obtain rfl : rows = t.rows.map fun other => if key other = key row then row else other := hRows
    rfl

theorem replace_eq_none {row : Row} :
    t.replace row = none ↔
      ¬∀ other ∈ t.rows, column other = column row → key other = key row := by
  unfold replace
  split
  · rename_i hFree
    exact iff_of_false (by simp) (not_not.mpr hFree)
  · rename_i hTaken
    exact iff_of_true rfl hTaken

theorem mem_of_insert {row : Row} {t' : Unique key column} (h : t.insert row = some t') :
    row ∈ t'.rows := by
  rw [(insert_eq_some.mp h).2]
  exact List.mem_append_right _ List.mem_cons_self

theorem mem_of_replace {row found : Row} {t' : Unique key column}
    (hFound : t.findKey (key row) = some found) (h : t.replace row = some t') :
    row ∈ t'.rows := by
  obtain ⟨hMem, hKey⟩ := findKey_eq_some.mp hFound
  rw [(replace_eq_some.mp h).2]
  exact List.mem_map.mpr ⟨found, hMem, if_pos hKey⟩

theorem mem_of_put {row : Row} {t' : Unique key column} (h : t.put row = some t') :
    row ∈ t'.rows := by
  unfold put at h
  split at h
  · next hSome =>
    obtain ⟨found, hFound⟩ := Option.isSome_iff_exists.mp hSome
    exact mem_of_replace hFound h
  · exact mem_of_insert h

/-- A row is put unless another key has its value. -/
theorem put_isSome {row : Row} :
    (∃ t', t.put row = some t') ↔
      ∀ other ∈ t.rows, column other = column row → key other = key row := by
  rw [← Option.isSome_iff_exists, put]
  split
  · rw [Option.isSome_iff_ne_none, ne_eq, replace_eq_none, not_not]
  · next hNone =>
    have hNew : key row ∉ t.rows.map key := by
      intro hMem
      obtain ⟨other, hOther, hKey⟩ := List.mem_map.mp hMem
      exact hNone (Option.isSome_iff_exists.mpr ⟨other, findKey_eq_some.mpr ⟨hOther, hKey⟩⟩)
    rw [Option.isSome_iff_ne_none, ne_eq, insert_eq_none]
    constructor
    · intro hFree other hOther hColumn
      exact absurd (.inr (List.mem_map.mpr ⟨other, hOther, hColumn⟩)) hFree
    · rintro hFree (hKey | hColumn)
      · exact hNew hKey
      · obtain ⟨other, hOther, hSame⟩ := List.mem_map.mp hColumn
        exact hNew (List.mem_map.mpr ⟨other, hOther, hFree other hOther hSame⟩)

end Unique

end Table
