import Mathlib.Data.List.DropRight
import Mathlib.Tactic.Linarith

/-!
# Paging by a cursor

The entries of an ascending list are read in pages, each from a cursor on and of at most `limit`
entries. The cursor moves to after the last entry of a page, and not beyond a later entry, so that
the next page continues where the page ends (`onward_follows`). A page from the other end of a
window is the same only in the cases of `rtake_eq_take_iff`.
-/

namespace Paging

variable {A : Type} (key : A → ℤ)

abbrev Ascending (xs : List A) : Prop := xs.Pairwise fun a b => key a < key b

/-- The entries from a cursor on. -/
def onward (cursor : ℤ) (xs : List A) : List A := xs.filter fun a => cursor ≤ key a

/-- The cursor moves to after the last place of a page, and not beyond a later place. -/
def Follows (places : List ℤ) (cursor : ℤ) (page : List ℤ) (cursor' : ℤ) : Prop :=
  match page.getLast? with
  | some last => last < cursor' ∧ ∀ place ∈ places, last < place → cursor' ≤ place
  | none => cursor' = cursor

variable {key} {xs : List A} {cursor cursor' : ℤ}

theorem Ascending.onward (h : Ascending key xs) : Ascending key (onward key cursor xs) :=
  h.filter _

/-- A choice of entries falls into its lower and its upper ones. -/
theorem Ascending.filter_eq_append {p low high : A → Prop} [DecidablePred p] [DecidablePred low]
    [DecidablePred high] (h : Ascending key xs) (hParts : ∀ a ∈ xs, p a ↔ low a ∨ high a)
    (hOrder : ∀ a b, low a → high b → key a < key b) :
    xs.filter (fun a => p a) = xs.filter (fun a => low a) ++ xs.filter (fun a => high a) := by
  induction h with
  | nil => rfl
  | @cons a xs hHead _ ih =>
    have hHeadParts := hParts a List.mem_cons_self
    have hRest := ih fun b hb => hParts b (List.mem_cons_of_mem a hb)
    by_cases hLow : low a
    · have hChosen : p a := hHeadParts.mpr (.inl hLow)
      have hNotHigh : ¬high a := fun hHigh => lt_irrefl _ (hOrder a a hLow hHigh)
      simp [hChosen, hLow, hNotHigh, hRest]
    · by_cases hHigh : high a
      · have hChosen : p a := hHeadParts.mpr (.inr hHigh)
        have hNone : xs.filter (fun b => low b) = [] := by
          rw [List.filter_eq_nil_iff]
          intro b hb hLowLater
          have hBefore := hOrder b a (of_decide_eq_true hLowLater) hHigh
          exact absurd (hHead b hb) hBefore.not_gt
        simp [hChosen, hLow, hHigh, hRest, hNone]
      · have hNeither : ¬p a := fun hp => (hHeadParts.mp hp).elim hLow hHigh
        simp [hNeither, hLow, hHigh, hRest]

theorem onward_onward (h : cursor ≤ cursor') :
    onward key cursor' (onward key cursor xs) = onward key cursor' xs := by
  unfold onward
  rw [List.filter_filter]
  apply List.filter_congr
  intro a _
  by_cases hAfter : cursor' ≤ key a
  · simp [hAfter, h.trans hAfter]
  · simp [hAfter]

/-- After an entry come the entries behind it. -/
theorem onward_after {page rest : List A} {a : A} (h : Ascending key (page ++ a :: rest))
    (hAfter : key a < cursor') (hBefore : ∀ b ∈ rest, cursor' ≤ key b) :
    onward key cursor' (page ++ a :: rest) = rest := by
  have hPage : ∀ b ∈ page, key b < key a := fun b hb =>
    (List.pairwise_append.mp h).2.2 b hb a List.mem_cons_self
  have hNone : page.filter (fun b => cursor' ≤ key b) = [] := by
    rw [List.filter_eq_nil_iff]
    intro b hb
    rw [decide_eq_true_eq]
    linarith [hPage b hb]
  have hAll : rest.filter (fun b => cursor' ≤ key b) = rest := by
    rw [List.filter_eq_self]
    intro b hb
    exact decide_eq_true (hBefore b hb)
  unfold onward
  rw [List.filter_append, hNone, List.nil_append,
    List.filter_cons_of_neg (by simpa using hAfter), hAll]

/-- **The next page.** -/
theorem onward_follows (h : Ascending key xs) {limit : ℕ}
    (hFollows : Follows (xs.map key) cursor (((onward key cursor xs).take limit).map key) cursor') :
    onward key cursor' xs = (onward key cursor xs).drop limit := by
  have hSorted : Ascending key (onward key cursor xs) := h.onward
  have hHeld : ∀ a ∈ onward key cursor xs, a ∈ xs ∧ cursor ≤ key a := fun a ha =>
    ⟨List.mem_of_mem_filter ha, of_decide_eq_true (List.mem_filter.mp ha).2⟩
  have hParts := List.take_append_drop limit (onward key cursor xs)
  unfold Follows at hFollows
  rw [List.getLast?_map] at hFollows
  cases hLast : ((onward key cursor xs).take limit).getLast? with
  | none =>
    rw [hLast] at hFollows
    obtain rfl : cursor' = cursor := hFollows
    rcases List.take_eq_nil_iff.mp (List.getLast?_eq_none_iff.mp hLast) with rfl | hNil
    · rfl
    · rw [hNil, List.drop_nil]
  | some a =>
    rw [hLast] at hFollows
    obtain ⟨hAfter, hLater⟩ := hFollows
    have hFrom := (hHeld a (List.mem_of_mem_take (List.mem_of_getLast? hLast))).2
    obtain ⟨page, hPage⟩ := List.getLast?_eq_some_iff.mp hLast
    generalize (onward key cursor xs).drop limit = rest at hParts ⊢
    rw [hPage, List.append_assoc, List.singleton_append] at hParts
    rw [← onward_onward (show cursor ≤ cursor' by linarith)]
    rw [← hParts] at hSorted hHeld ⊢
    refine onward_after hSorted hAfter fun b hb => ?_
    have hb' : b ∈ page ++ a :: rest := List.mem_append_right _ (List.mem_cons_of_mem a hb)
    have hBehind : key a < key b :=
      (List.pairwise_cons.mp (List.pairwise_append.mp hSorted).2.1).1 b hb
    exact hLater (key b) (List.mem_map_of_mem (hHeld b hb').1) hBehind

/-! ## Two ends of a window -/

section

variable {before window after : List A} {limit : ℕ}

theorem rtake_append_of_le (h : window.length ≤ limit) : (before ++ window).rtake limit =
    before.rtake (limit - window.length) ++ window := by
  unfold List.rtake
  rw [List.length_append, List.drop_append_of_le_length (by omega)]
  congr 2
  omega

theorem take_append_of_le (h : window.length ≤ limit) : (window ++ after).take limit =
    window ++ after.take (limit - window.length) := by
  rw [List.take_append, List.take_of_length_le h]

/-- The first entries of a longer window are not its last ones. -/
theorem rtake_ne_take (hDistinct : window.Nodup) (hLimit : 1 ≤ limit)
    (hLong : limit < window.length) :
    (before ++ window).rtake limit ≠ (window ++ after).take limit := by
  cases window with
  | nil => cases hLong
  | cons a window =>
    obtain ⟨k, rfl⟩ := Nat.exists_eq_add_of_le' hLimit
    rw [List.length_cons] at hLong
    have hRight : (before ++ a :: window).rtake (k + 1) =
        window.drop (window.length - (k + 1)) := by
      have hPlace : before.length + (window.length + 1) - (k + 1) =
          before.length + (window.length - (k + 1) + 1) := by omega
      rw [List.rtake, List.length_append, List.length_cons, hPlace, List.drop_length_add_append,
        List.drop_succ_cons]
    rw [hRight, List.cons_append, List.take_succ_cons]
    intro hSame
    have ha : a ∈ window := List.mem_of_mem_drop (hSame ▸ List.mem_cons_self)
    exact (List.nodup_cons.mp hDistinct).1 ha

/-- The last entries of `before ++ window` are the first ones of `window ++ after` just if there are
as many as `limit` in the window, or fewer of them and nothing else. -/
theorem rtake_eq_take_iff (hDistinct : (before ++ (window ++ after)).Nodup) (hLimit : 1 ≤ limit) :
    before ++ window ≠ [] ∧ (before ++ window).rtake limit = (window ++ after).take limit ↔
      window.length = limit ∨
        window ≠ [] ∧ window.length < limit ∧ before = [] ∧ after = [] := by
  obtain ⟨-, hRest, hDisjoint⟩ := List.nodup_append.mp hDistinct
  constructor
  · rintro ⟨hSome, hSame⟩
    rcases lt_trichotomy window.length limit with hShort | hExact | hLong
    · rw [rtake_append_of_le hShort.le, take_append_of_le hShort.le] at hSame
      have hBefore : before.rtake (limit - window.length) = [] := by
        rw [List.eq_nil_iff_forall_not_mem]
        intro a ha
        have hMem : a ∈ window ++ after.take (limit - window.length) :=
          hSame ▸ List.mem_append_left _ ha
        have hAfter : a ∈ window ++ after :=
          List.mem_append.mpr ((List.mem_append.mp hMem).imp_right List.mem_of_mem_take)
        exact hDisjoint a (List.mem_of_mem_drop ha) a hAfter rfl
      rw [hBefore, List.nil_append, List.self_eq_append_right, List.take_eq_nil_iff] at hSame
      have hNil : before = [] := by
        rw [List.rtake, List.drop_eq_nil_iff] at hBefore
        exact List.length_eq_zero_iff.mp (by omega)
      rw [hNil, List.nil_append] at hSome
      exact .inr ⟨hSome, hShort, hNil, hSame.resolve_left (by omega)⟩
    · exact .inl hExact
    · exact absurd hSame (rtake_ne_take (List.nodup_append.mp hRest).1 hLimit hLong)
  · rintro (hExact | ⟨hSome, hShort, rfl, rfl⟩)
    · have hWindow : window ≠ [] := by
        rintro rfl
        rw [List.length_nil] at hExact
        omega
      refine ⟨List.append_ne_nil_of_right_ne_nil _ hWindow, ?_⟩
      rw [rtake_append_of_le hExact.le, take_append_of_le hExact.le, hExact, Nat.sub_self,
        List.rtake_zero, List.take_zero, List.nil_append, List.append_nil]
    · rw [List.nil_append, List.append_nil, List.take_of_length_le hShort.le, List.rtake,
        Nat.sub_eq_zero_of_le hShort.le, List.drop_zero]
      exact ⟨hSome, rfl⟩

end

/-- More entries in front of a page. -/
theorem take_append_eq_take_iff {before window : List A} {limit : ℕ}
    (hDistinct : (before ++ window).Nodup) (hLimit : 1 ≤ limit) :
    (before ++ window).take limit = window.take limit ↔ before = [] := by
  constructor
  · intro h
    cases before with
    | nil => rfl
    | cons a before =>
      obtain ⟨limit, rfl⟩ := Nat.exists_eq_add_of_le' hLimit
      rw [List.cons_append, List.take_succ_cons] at h
      have ha : a ∈ window := List.mem_of_mem_take (h ▸ List.mem_cons_self)
      rw [List.cons_append, List.nodup_cons] at hDistinct
      exact absurd (List.mem_append_right before ha) hDistinct.1
  · rintro rfl
    rfl

end Paging
