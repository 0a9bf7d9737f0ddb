import TradingAgent.Trading.Splitting
import Mathlib.Data.List.Induction

/-!
# Legs of a position

A leg starts with the fill that takes the position from flat or flips its sign, and goes on
until the next such fill. `Leg` splits a sequence of fills at the last of these, and
`leg_average` says that the average entry price is zero exactly while the position is flat,
and else lies between the prices of fills that opened or increased the current leg.
-/

namespace TradingAgent.Trading

open Accounting

/-- The quantity held after the fills. -/
def net (fills : List Fill) : ℚ := (fills.map Fill.signedQuantity).sum

/-- From `held`, a change by `signed` opens a position or flips its sign. -/
def Starts (held signed : ℚ) : Prop :=
  held = 0 ∨ (0 < held ∧ held + signed < 0) ∨ (held < 0 ∧ 0 < held + signed)

/-- From `held`, a change by `signed` increases the position. -/
def Increases (held signed : ℚ) : Prop := (0 < held ∧ 0 < signed) ∨ (held < 0 ∧ signed < 0)

/-- The current leg of the fills: it starts with `opening`, and no later fill starts one. -/
structure Leg (fills before : List Fill) (opening : Fill) (later : List Fill) : Prop where
  split : fills = before ++ opening :: later
  starts : Starts (net before) opening.signedQuantity
  continues : ∀ l f r, later = l ++ f :: r →
    ¬Starts (net (before ++ opening :: l)) f.signedQuantity

/-- The fill opened or increased the leg. -/
def Enters (before : List Fill) (opening : Fill) (later : List Fill) (f : Fill) : Prop :=
  f = opening ∨
    ∃ l r, later = l ++ f :: r ∧ Increases (net (before ++ opening :: l)) f.signedQuantity

theorem net_concat (fills : List Fill) (f : Fill) :
    net (fills ++ [f]) = net fills + f.signedQuantity := by
  simp [net]

/-! ## Changes counted in the direction of the fill -/

theorem starts_iff (f : Fill) (held : ℚ) :
    Starts held f.signedQuantity ↔
      Position.signedQuantity f.side.value held ≤ 0 ∧
        0 < Position.signedQuantity f.side.value held + f.quantity := by
  have hQuantity := f.quantity_pos
  unfold Starts Fill.signedQuantity Position.signedQuantity
  split
  · grind
  · grind

theorem increases_iff (f : Fill) (held : ℚ) :
    Increases held f.signedQuantity ↔ 0 < Position.signedQuantity f.side.value held := by
  have hQuantity := f.quantity_pos
  unfold Increases Fill.signedQuantity Position.signedQuantity
  split
  · grind
  · grind

/-! ## One more fill -/

section Concat

variable {fills before later : List Fill} {opening f g : Fill}

/-- The places in a list with one more entry. -/
theorem concat_eq_split {A : Type} {xs l r : List A} {x y : A} (h : xs ++ [x] = l ++ y :: r) :
    (xs = l ∧ x = y ∧ r = []) ∨ ∃ r', xs = l ++ y :: r' ∧ r = r' ++ [x] := by
  rcases List.eq_nil_or_concat r with rfl | ⟨r', z, rfl⟩
  · obtain ⟨hInit, hLast⟩ := List.append_inj' h rfl
    exact .inl ⟨hInit, List.singleton_inj.mp hLast, rfl⟩
  · rw [List.concat_eq_append, ← List.cons_append, ← List.append_assoc] at h
    obtain ⟨hInit, hLast⟩ := List.append_inj' h rfl
    exact .inr ⟨r', hInit, by rw [List.concat_eq_append, List.singleton_inj.mp hLast]⟩

/-- A fill that starts a leg is the leg. -/
theorem Leg.opened (h : Starts (net fills) f.signedQuantity) : Leg (fills ++ [f]) fills f [] :=
  ⟨rfl, h, fun l g r hSplit => by simp at hSplit⟩

/-- Any other fill goes on with it. -/
theorem Leg.concat (hLeg : Leg fills before opening later)
    (h : ¬Starts (net fills) f.signedQuantity) :
    Leg (fills ++ [f]) before opening (later ++ [f]) := by
  refine ⟨by rw [hLeg.split, List.append_assoc, List.cons_append], hLeg.starts, ?_⟩
  intro l g r hSplit
  rcases concat_eq_split hSplit with ⟨rfl, rfl, -⟩ | ⟨r', hBefore, -⟩
  · rw [← hLeg.split]
    exact h
  · exact hLeg.continues l g r' hBefore

theorem Enters.concat (h : Enters before opening later g) :
    Enters before opening (later ++ [f]) g := by
  rcases h with rfl | ⟨l, r, rfl, hIncreases⟩
  · exact .inl rfl
  · exact .inr ⟨l, r ++ [f], by rw [List.append_assoc, List.cons_append], hIncreases⟩

theorem Enters.last (hLeg : Leg fills before opening later)
    (h : Increases (net fills) f.signedQuantity) :
    Enters before opening (later ++ [f]) f := by
  rw [hLeg.split] at h
  exact .inr ⟨later, [], rfl, h⟩

end Concat

/-! ## The average along a leg -/

/-- The average lies between prices at which the current leg was entered. -/
def Within (fills : List Fill) (average : ℚ) : Prop :=
  ∃ before opening later, Leg fills before opening later ∧
    ∃ low high, Enters before opening later low ∧ Enters before opening later high ∧
      low.price ≤ average ∧ average ≤ high.price

theorem Within.pos {fills : List Fill} {average : ℚ} (h : Within fills average) :
    0 < average := by
  obtain ⟨before, opening, later, -, low, high, -, -, hLow, -⟩ := h
  exact low.price_pos.trans_le hLow

theorem Within.opened {fills : List Fill} {f : Fill} (h : Starts (net fills) f.signedQuantity) :
    Within (fills ++ [f]) f.price :=
  ⟨fills, f, [], Leg.opened h, f, f, .inl rfl, .inl rfl, le_rfl, le_rfl⟩

theorem Within.kept {fills : List Fill} {average : ℚ} {f : Fill} (hWithin : Within fills average)
    (h : ¬Starts (net fills) f.signedQuantity) : Within (fills ++ [f]) average := by
  obtain ⟨before, opening, later, hLeg, low, high, hLow, hHigh, hBounds⟩ := hWithin
  exact ⟨before, opening, later ++ [f], hLeg.concat h, low, high, hLow.concat, hHigh.concat,
    hBounds⟩

theorem Within.increased {fills : List Fill} {average held : ℚ} {f : Fill}
    (hWithin : Within fills average) (hHeld : 0 ≤ held)
    (hNotStarts : ¬Starts (net fills) f.signedQuantity)
    (h : Increases (net fills) f.signedQuantity) :
    Within (fills ++ [f]) (entry held average f.quantity f.price) := by
  obtain ⟨before, opening, later, hLeg, low, high, hLow, hHigh, hAtLeast, hAtMost⟩ := hWithin
  have hEnters : Enters before opening (later ++ [f]) f := Enters.last hLeg h
  have hLower : ∃ low', Enters before opening (later ++ [f]) low' ∧ low'.price ≤ average ∧
      low'.price ≤ f.price := by
    rcases le_total low.price f.price with hLe | hLe
    · exact ⟨low, hLow.concat, hAtLeast, hLe⟩
    · exact ⟨f, hEnters, hLe.trans hAtLeast, le_rfl⟩
  have hUpper : ∃ high', Enters before opening (later ++ [f]) high' ∧ average ≤ high'.price ∧
      f.price ≤ high'.price := by
    rcases le_total f.price high.price with hLe | hLe
    · exact ⟨high, hHigh.concat, hAtMost, hLe⟩
    · exact ⟨f, hEnters, hAtMost.trans hLe, le_rfl⟩
  obtain ⟨low', hLowEnters, hLowAverage, hLowPrice⟩ := hLower
  obtain ⟨high', hHighEnters, hHighAverage, hHighPrice⟩ := hUpper
  obtain ⟨hAtLeast', hAtMost'⟩ := entry_between hHeld f.quantity_pos
    ⟨hLowAverage, hHighAverage⟩ ⟨hLowPrice, hHighPrice⟩
  exact ⟨before, opening, later ++ [f], hLeg.concat hNotStarts, low', high', hLowEnters,
    hHighEnters, hAtLeast', hAtMost'⟩

namespace Position

/-- The position has the net quantity of the fills, and its average is that of the leg. -/
structure Averaged (fills : List Fill) (p : Position) : Prop where
  quantity : p.quantity = net fills
  flat : p.quantity = 0 → p.averageEntryPrice = 0
  held : p.quantity ≠ 0 → Within fills p.averageEntryPrice

theorem Averaged.empty (symbol : String) : Averaged [] (empty symbol) :=
  ⟨rfl, fun _ => rfl, fun h => absurd rfl h⟩

theorem Averaged.applyFill {fills : List Fill} {p q : Position} {f : Fill}
    (h : Averaged fills p) (hFill : p.applyFill f.side.value f.quantity f.price = .ok q) :
    Averaged (fills ++ [f]) q := by
  have hQuantity : q.quantity = p.quantity + f.signedQuantity := applyFill_quantity hFill
  have hNet : q.quantity = net (fills ++ [f]) := by rw [net_concat, ← h.quantity, hQuantity]
  have hAverage := applyFill_entry hFill
  have hStarts := starts_iff f (net fills)
  have hIncreases := increases_iff f (net fills)
  rw [← h.quantity] at hStarts hIncreases
  have hFlat : p.quantity = 0 ↔ Position.signedQuantity f.side.value p.quantity = 0 :=
    (signedQuantity_eq_zero_iff _ _).symm
  have hFlat' : q.quantity = 0 ↔
      Position.signedQuantity f.side.value p.quantity + f.quantity = 0 := by
    rw [hQuantity, ← signedQuantity_filled, signedQuantity_eq_zero_iff]
    rfl
  have hPositive := f.quantity_pos
  -- What is held, counted in the direction of the fill.
  generalize Position.signedQuantity f.side.value p.quantity = held at *
  rw [h.quantity] at hStarts hIncreases
  rcases lt_trichotomy held 0 with hAgainst | rfl | hAlong
  · have hKept := h.held (fun hZero => hAgainst.ne (hFlat.mp hZero))
    rcases lt_trichotomy (held + f.quantity) 0 with hLeft | hClosed | hTurned
    · rw [entry_against hAgainst hLeft] at hAverage
      have hNotStarts := mt hStarts.mp fun hBoth => lt_asymm hLeft hBoth.2
      exact ⟨hNet, fun hZero => absurd (hFlat'.mp hZero) hLeft.ne,
        fun _ => hAverage ▸ hKept.kept hNotStarts⟩
    · rw [entry_closed hAgainst hClosed] at hAverage
      exact ⟨hNet, fun _ => hAverage, fun hOpen => absurd (hFlat'.mpr hClosed) hOpen⟩
    · rw [entry_turned hAgainst hTurned] at hAverage
      exact ⟨hNet, fun hZero => absurd (hFlat'.mp hZero) hTurned.ne',
        fun _ => hAverage ▸ Within.opened (hStarts.mpr ⟨hAgainst.le, hTurned⟩)⟩
  · rw [entry_opened hPositive.ne'] at hAverage
    have hOpened : 0 < 0 + f.quantity := by rwa [zero_add]
    exact ⟨hNet, fun hZero => absurd (hFlat'.mp hZero) hOpened.ne',
      fun _ => hAverage ▸ Within.opened (hStarts.mpr ⟨le_rfl, hOpened⟩)⟩
  · have hKept := h.held (fun hZero => hAlong.ne' (hFlat.mp hZero))
    have hNew : 0 < held + f.quantity := add_pos hAlong hPositive
    have hNotStarts := mt hStarts.mp fun hBoth => hBoth.1.not_gt hAlong
    exact ⟨hNet, fun hZero => absurd (hFlat'.mp hZero) hNew.ne',
      fun _ => hAverage ▸ hKept.increased hAlong.le hNotStarts (hIncreases.mpr hAlong)⟩

theorem applyFills_concat (self : Position) (fills : List Fill) (f : Fill) :
    self.applyFills (fills ++ [f]) =
      (self.applyFills fills).bind fun p => p.applyFill f.side.value f.quantity f.price := by
  rw [applyFills, List.foldlM_append]
  refine congrArg (self.applyFills fills >>= ·) (funext fun p => ?_)
  rw [List.foldlM_cons]
  exact bind_pure _

theorem applyFills_averaged {symbol : String} {fills : List Fill} {p : Position}
    (h : (empty symbol).applyFills fills = .ok p) : Averaged fills p := by
  induction fills using List.reverseRecOn generalizing p with
  | nil =>
    obtain rfl := Except.ok.inj h
    exact .empty symbol
  | append_singleton fills f ih =>
    rw [applyFills_concat] at h
    obtain ⟨q, hq, hFill⟩ := bind_eq_ok.mp h
    exact (ih hq).applyFill hFill

/-- **The average entry price.** Any fills applied to the empty position succeed, and the
position has their net quantity. Its average is zero exactly when it is flat; else it is
positive and lies between the prices of two fills that opened or increased the current leg. -/
theorem leg_average (symbol : String) (fills : List Fill) :
    ∃ p, (empty symbol).applyFills fills = .ok p ∧ p.quantity = net fills ∧
      (p.averageEntryPrice = 0 ↔ p.quantity = 0) ∧
      (p.quantity ≠ 0 → 0 < p.averageEntryPrice ∧
        ∃ before opening later, Leg fills before opening later ∧
          ∃ low high, Enters before opening later low ∧ Enters before opening later high ∧
            low.price ≤ p.averageEntryPrice ∧ p.averageEntryPrice ≤ high.price) := by
  obtain ⟨p, hp⟩ := (empty symbol).applyFills_ok fills
  have hAveraged := applyFills_averaged hp
  refine ⟨p, hp, hAveraged.quantity, ⟨fun hZero => ?_, hAveraged.flat⟩, fun hHeld => ?_⟩
  · by_contra hHeld
    exact (hAveraged.held hHeld).pos.ne' hZero
  · exact ⟨(hAveraged.held hHeld).pos, hAveraged.held hHeld⟩

end Position

end TradingAgent.Trading
