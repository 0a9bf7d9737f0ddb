import Mathlib.Data.List.Induction
import Mathlib.Data.List.Nodup
import Mathlib.Order.Lattice

/-!
# Tables that keep one row of a key

Every row is added, and of the rows with one key the table shows that of the latest version,
and among these the last. Where the key determines the version this is the last row with the
key (`filter_final`), so a row stays until another one with its key is added
(`mem_final_append`). Rows in ascending order are determined by their members
(`eq_of_mem_iff`), and a range of them splits at any bound (`filter_split`).
-/

namespace Table

variable {Row Key Version : Type} [DecidableEq Key] [LinearOrder Version]
  {key : Row → Key} {version : Row → Version}

/-- The last row with a key. -/
def last (key : Row → Key) (rows : List Row) (k : Key) : Option Row :=
  (rows.filter fun row => key row = k).getLast?

/-- A row takes the place of the row with its key, unless that has a later version. -/
def supersede (key : Row → Key) (version : Row → Version) (kept : List Row) (row : Row) :
    List Row :=
  if kept.any fun other => key other = key row ∧ version row < version other then kept
  else kept.filter (fun other => key other ≠ key row) ++ [row]

/-- What the table shows of its rows. -/
def final (key : Row → Key) (version : Row → Version) (rows : List Row) : List Row :=
  rows.foldl (supersede key version) []

theorem last_append_singleton (rows : List Row) (row : Row) (k : Key) :
    last key (rows ++ [row]) k = if key row = k then some row else last key rows k := by
  unfold last
  rw [List.filter_append]
  by_cases hKey : key row = k
  · simp [hKey]
  · simp [hKey]

theorem last_eq_some {rows : List Row} {row : Row} {k : Key} (h : last key rows k = some row) :
    row ∈ rows ∧ key row = k := by
  have hMem := List.mem_of_getLast? h
  simpa using hMem

theorem exists_last (key : Row → Key) {rows : List Row} {row : Row} (hRow : row ∈ rows) :
    ∃ found, last key rows (key row) = some found := by
  have hMem : row ∈ rows.filter fun other => key other = key row := by simpa using hRow
  exact ⟨_, List.getLast?_eq_some_getLast (List.ne_nil_of_mem hMem)⟩

/-- Rows with other keys do not change the last row with a key. -/
theorem last_append {rows added : List Row} {k : Key} (hOther : ∀ row ∈ added, key row ≠ k) :
    last key (rows ++ added) k = last key rows k := by
  unfold last
  have hNone : (added.filter fun row => key row = k) = [] :=
    List.filter_eq_nil_iff.mpr fun row hRow => by simpa using hOther row hRow
  rw [List.filter_append, hNone, List.append_nil]

/-- A coarser key: the last row of a key is the last row of each finer one that it has. -/
theorem last_of_finer {Fine : Type} [DecidableEq Fine] {fine : Row → Fine} {rows : List Row}
    {row : Row} (hFiner : ∀ other, fine other = fine row → key other = key row)
    (h : last key rows (key row) = some row) :
    last fine rows (fine row) = some row := by
  obtain ⟨before, hBefore⟩ := List.getLast?_eq_some_iff.mp h
  have hFilter : rows.filter (fun other => fine other = fine row) =
      (rows.filter fun other => key other = key row).filter
        fun other => fine other = fine row := by
    rw [List.filter_filter]
    refine List.filter_congr fun other _ => ?_
    by_cases hFine : fine other = fine row
    · simp [hFine, hFiner other hFine]
    · simp [hFine]
  rw [last, hFilter, hBefore, List.filter_append]
  simp

theorem eq_toList_of_perm {A : Type} {l : List A} {o : Option A} (h : l.Perm o.toList) :
    l = o.toList := by
  cases o with
  | none => exact List.perm_nil.mp h
  | some a => exact List.perm_singleton.mp h

theorem final_append_singleton (rows : List Row) (row : Row) :
    final key version (rows ++ [row]) = supersede key version (final key version rows) row := by
  simp [final]

/-- The rows that are shown come from the table. -/
theorem mem_of_mem_final {rows : List Row} {row : Row} (h : row ∈ final key version rows) :
    row ∈ rows := by
  induction rows using List.reverseRecOn with
  | nil => simp [final] at h
  | append_singleton rows added ih =>
    rw [final_append_singleton] at h
    unfold supersede at h
    split at h
    · exact List.mem_append_left _ (ih h)
    · rcases List.mem_append.mp h with hKept | hAdded
      · exact List.mem_append_left _ (ih (List.mem_filter.mp hKept).1)
      · exact List.mem_append_right _ hAdded

/-- **One row of a key.** Where the key determines the version, the last row is shown. -/
theorem filter_final (hVersion : ∀ a b, key a = key b → version a = version b) (rows : List Row)
    (k : Key) : (final key version rows).filter (fun row => key row = k) =
      (last key rows k).toList := by
  induction rows using List.reverseRecOn with
  | nil => rfl
  | append_singleton rows added ih =>
    have hNever : ¬(final key version rows).any fun other =>
        key other = key added ∧ version added < version other := by
      simp only [List.any_eq_true, decide_eq_true_eq, not_exists, not_and, not_lt]
      intro other _ hSame
      exact le_of_eq (hVersion _ _ hSame)
    rw [final_append_singleton, supersede, if_neg hNever, List.filter_append, List.filter_filter,
      last_append_singleton]
    by_cases hKey : key added = k
    · subst hKey
      simp
    · have hKept : (final key version rows).filter (fun row => key row = k) =
          (final key version rows).filter fun row => key row = k ∧ key row ≠ key added := by
        refine List.filter_congr fun row _ => ?_
        by_cases hRow : key row = k
        · simp [hRow, Ne.symm hKey]
        · simp [hRow]
      rw [if_neg hKey, ← ih, hKept]
      simp [hKey]

theorem mem_final (hVersion : ∀ a b, key a = key b → version a = version b) {rows : List Row}
    {row : Row} : row ∈ final key version rows ↔ last key rows (key row) = some row := by
  have hFilter := filter_final hVersion rows (key row)
  have hMem : row ∈ final key version rows ↔
      row ∈ (final key version rows).filter fun other => key other = key row := by simp
  rw [hMem, hFilter, Option.mem_toList]

/-- A row stays until another one with its key is added. -/
theorem mem_final_append (hVersion : ∀ a b, key a = key b → version a = version b)
    {rows added : List Row} {row : Row} (hRow : row ∈ final key version rows)
    (hOther : ∀ other ∈ added, key other ≠ key row) : row ∈ final key version (rows ++ added) := by
  rw [mem_final hVersion] at hRow ⊢
  rw [last_append hOther]
  exact hRow

/-- The table of the images of rows shows the images of what it shows of the rows. -/
theorem final_map {Source : Type} (f : Source → Row) (rows : List Source) :
    final key version (rows.map f) =
      (final (fun row => key (f row)) (fun row => version (f row)) rows).map f := by
  induction rows using List.reverseRecOn with
  | nil => rfl
  | append_singleton rows added ih =>
    rw [List.map_append, List.map_singleton, final_append_singleton, final_append_singleton, ih]
    unfold supersede
    rw [List.any_map, List.filter_map, apply_ite (List.map f), List.map_append]
    rfl

/-! ## The last row of each key -/

/-- Rows that are added are looked up first. -/
theorem last_append_eq (rows added : List Row) (k : Key) :
    last key (rows ++ added) k = (last key added k).or (last key rows k) := by
  unfold last
  rw [List.filter_append, List.getLast?_append]

/-- Rows with other keys may be added in any order. -/
theorem last_comm {rows a b : List Row} (hApart : ∀ row ∈ a, ∀ other ∈ b, key row ≠ key other)
    (k : Key) : last key (rows ++ a ++ b) k = last key (rows ++ b ++ a) k := by
  simp only [last_append_eq]
  cases hA : last key a k with
  | none => simp
  | some row =>
    have hB : last key b k = none := by
      cases hFound : last key b k with
      | none => rfl
      | some other =>
        obtain ⟨hRow, hKey⟩ := last_eq_some hA
        obtain ⟨hOther, hSame⟩ := last_eq_some hFound
        exact absurd (hKey.trans hSame.symm) (hApart row hRow other hOther)
    rw [hB]
    rfl

/-- Rows that are added again are there already. -/
theorem last_again (rows added : List Row) (k : Key) :
    last key (rows ++ added ++ added) k = last key (rows ++ added) k := by
  simp only [last_append_eq]
  cases last key added k <;> rfl

theorem nodup_final (rows : List Row) : (final key version rows).Nodup := by
  induction rows using List.reverseRecOn with
  | nil => exact List.nodup_nil
  | append_singleton rows added ih =>
    rw [final_append_singleton]
    unfold supersede
    split
    · exact ih
    · refine List.nodup_append.mpr ⟨ih.filter _, List.nodup_singleton _, ?_⟩
      intro row hRow other hOther hSame
      obtain rfl := List.mem_singleton.mp hOther
      subst hSame
      simpa using (List.mem_filter.mp hRow).2

/-! ## Rows in ascending order -/

section Ascending

variable {A B : Type} [LinearOrder B] {f : A → B}

/-- Rows in strictly ascending order are determined by their members. -/
theorem eq_of_mem_iff {l l' : List A} (h : l.Pairwise fun a b => f a < f b)
    (h' : l'.Pairwise fun a b => f a < f b) (hMem : ∀ a, a ∈ l ↔ a ∈ l') : l = l' := by
  have hNodup {l : List A} (h : l.Pairwise fun a b => f a < f b) : l.Nodup :=
    h.imp fun hLt hSame => absurd (congrArg f hSame) (ne_of_lt hLt)
  have hPerm : l.Perm l' := (List.perm_ext_iff_of_nodup (hNodup h) (hNodup h')).mpr hMem
  refine hPerm.eq_of_pairwise (fun a b _ _ hLt hGt => ?_) h h'
  exact absurd hGt (lt_asymm hLt)

/-- A range of ascending rows is its part up to a bound and its part after it. -/
theorem filter_split {l : List A} (h : l.Pairwise fun a b => f a < f b) {low middle high : B}
    (hLow : low ≤ middle) (hHigh : middle ≤ high) :
    (l.filter fun a => low ≤ f a ∧ f a ≤ high) =
      (l.filter fun a => low ≤ f a ∧ f a ≤ middle) ++
        (l.filter fun a => middle ≤ f a ∧ f a ≤ high).filter fun a => middle < f a := by
  refine eq_of_mem_iff (h.filter _) ?_ fun a => ?_
  · refine List.pairwise_append.mpr ⟨h.filter _, (h.filter _).filter _, fun a ha b hb => ?_⟩
    have hUpTo := (of_decide_eq_true (List.mem_filter.mp ha).2).2
    have hAfter : middle < f b := of_decide_eq_true (List.mem_filter.mp hb).2
    exact lt_of_le_of_lt hUpTo hAfter
  · simp only [List.mem_append, List.mem_filter, decide_eq_true_eq]
    constructor
    · rintro ⟨hMem, hFrom, hTo⟩
      rcases le_or_gt (f a) middle with hLe | hGt
      · exact .inl ⟨hMem, hFrom, hLe⟩
      · exact .inr ⟨⟨hMem, le_of_lt hGt, hTo⟩, hGt⟩
    · rintro (⟨hMem, hFrom, hTo⟩ | ⟨⟨hMem, hFrom, hTo⟩, -⟩)
      · exact ⟨hMem, hFrom, hTo.trans hHigh⟩
      · exact ⟨hMem, hLow.trans hFrom, hTo⟩

end Ascending

end Table
