import TradingAgent.Coroutine.Runs
import TradingAgent.Marketdata.Binance
import TradingAgent.Marketdata.CandleStore
import TradingAgent.Word.Firsts

/-!
# The ingest service

`sync` fetches candles, keeps the first of each key (symbol, timeframe and second), appends these
to the store and publishes them. Before, the Binance adapter has sorted the candles by their full
times and has kept the first of each second. Both loops are `firsts`, so that the second one leaves
what the first returns as it is (`dedupe_laws`). The seconds are those of a float: they are the
whole ones of the times up to the year 2514, and join some of them later (`second_lost`).

The summary is computed after `candles` has been rebound to what `_dedupe` returns. It says how
many candles the provider has returned only if none of them was dropped (`adds_up_iff`).
-/

namespace TradingAgent.Marketdata

open Coroutine Coro Firsts Rounding Tooling

/-- The whole second of a candle. -/
def Candle.whole (c : Candle) : ℤ := c.openedAt / 10 ^ 6

theorem Candle.whole_mono {a b : Candle} (h : a.openedAt ≤ b.openedAt) : a.whole ≤ b.whole :=
  Int.ediv_le_ediv (by norm_num) h

section

variable [Moments]

/-- `int(c.opened_at.timestamp())`. -/
def Candle.second (c : Candle) : ℤ := Moments.timestamp c.openedAt

/-- The key of `_dedupe`. -/
def Candle.key (c : Candle) : String × String × ℤ := (c.symbol.code, c.timeframe.value, c.second)

theorem Candle.second_mono [ExactMoments] {a b : Candle} (h : a.openedAt ≤ b.openedAt) :
    a.second ≤ b.second := by
  rw [Candle.second, Candle.second, ExactMoments.timestamp_eq, ExactMoments.timestamp_eq]
  exact seconds_mono h

/-- Up to the year 2514 the float keeps the microseconds apart, and the second is the whole one. -/
theorem Candle.second_eq [ExactMoments] {c : Candle} (hEpoch : 0 ≤ c.openedAt)
    (hEnd : c.openedAt < 2 ^ 34 * 10 ^ 6) : c.second = c.whole := by
  rw [Candle.second, ExactMoments.timestamp_eq]
  exact seconds_eq hEpoch hEnd

/-! ## Deduplication -/

namespace Binance

theorem unseen_eq_firsts (seen : List ℤ) (candles : List Candle) :
    unseen seen candles = firsts Candle.second seen candles := by
  induction candles generalizing seen with
  | nil => rfl
  | cons c candles ih =>
    rw [unseen, firsts, ih, ih]
    rfl

/-- The order of `sorted(candles, key=lambda c: c.opened_at)`. -/
abbrev Before (a b : Candle) : Prop := a.openedAt ≤ b.openedAt

theorem sortUnique_eq_firsts (candles : List Candle) :
    sortUnique candles = firsts Candle.second [] (candles.insertionSort Before) :=
  unseen_eq_firsts _ _

omit [Moments] in
/-- A list ascends in seconds and has of each second one of the least candles. -/
structure OnePerSecond (second : Candle → ℤ) (candles unique : List Candle) : Prop where
  ascending : (unique.map second).Pairwise (· < ·)
  subset : ∀ c ∈ unique, c ∈ candles
  exactly : ∀ c ∈ candles, ∃! d, d ∈ unique ∧ second d = second c
  least : ∀ d ∈ unique, ∀ c ∈ candles, second c = second d → d.openedAt ≤ c.openedAt

omit [Moments] in
theorem sorted_before (candles : List Candle) :
    (candles.insertionSort Before).Pairwise Before :=
  List.pairwise_insertionSort Before candles

theorem onePerSecond_sortUnique [ExactMoments] (candles : List Candle) :
    OnePerSecond Candle.second candles (sortUnique candles) := by
  have hSorted := sorted_before candles
  have hSame (c : Candle) : c ∈ candles.insertionSort Before ↔ c ∈ candles :=
    List.mem_insertionSort Before
  rw [sortUnique_eq_firsts]
  refine ⟨ascending_firsts hSorted fun _ _ => Candle.second_mono, fun c hc => ?_, fun c hc => ?_,
    fun d hd c hc hSecond => ?_⟩
  · exact (hSame c).mp (mem_of_mem_firsts hc)
  · have hKept : ∃ d ∈ firsts Candle.second [] (candles.insertionSort Before),
        d.second = c.second := exists_mem_firsts ((hSame c).mpr hc)
    obtain ⟨d, hd, hSecond⟩ := hKept
    refine ⟨d, ⟨hd, hSecond⟩, fun other hOther => ?_⟩
    exact eq_of_mem_firsts hOther.1 hd (hOther.2.trans hSecond.symm)
  · exact least_firsts hSorted (fun _ => le_rfl) hd ((hSame c).mpr hc) hSecond

/-- The keys of some candles tell their whole seconds apart, and nothing else. -/
def Told (candles : List Candle) : Prop :=
  ∀ c ∈ candles, ∀ d ∈ candles, c.second = d.second ↔ c.whole = d.whole

theorem told_of_range [ExactMoments] {candles : List Candle}
    (h : ∀ c ∈ candles, 0 ≤ c.openedAt ∧ c.openedAt < 2 ^ 34 * 10 ^ 6) : Told candles := by
  intro c hc d hd
  rw [Candle.second_eq (h c hc).1 (h c hc).2, Candle.second_eq (h d hd).1 (h d hd).2]

omit [Moments] in
/-- Of two candles with different seconds, the one with the less is before the other. -/
theorem openedAt_lt {second : Candle → ℤ}
    (hMono : ∀ a b : Candle, a.openedAt ≤ b.openedAt → second a ≤ second b) {a b : Candle}
    (h : second a < second b) : a.openedAt < b.openedAt := by
  by_contra hLe
  exact absurd (hMono b a (not_lt.mp hLe)) (not_le.mpr h)

omit [Moments] in
/-- A list that has one candle of each second, by two ways to count seconds, joins no seconds by
the one that the other tells apart. -/
theorem OnePerSecond.eq_of_eq {second second' : Candle → ℤ} {candles unique : List Candle}
    (hMono : ∀ a b : Candle, a.openedAt ≤ b.openedAt → second a ≤ second b)
    (hMono' : ∀ a b : Candle, a.openedAt ≤ b.openedAt → second' a ≤ second' b)
    (h : OnePerSecond second candles unique) (h' : OnePerSecond second' candles unique)
    {c d : Candle} (hc : c ∈ candles) (hd : d ∈ candles) (hSame : second c = second d) :
    second' c = second' d := by
  have hNotLt : ∀ a ∈ candles, ∀ b ∈ candles, second a = second b → ¬second' a < second' b := by
    intro a ha b hb hEq hLt
    -- The first candle of the later second is later than `a`, which has the same first candle.
    obtain ⟨e, ⟨he, hSecond⟩, -⟩ := h'.exactly b hb
    have hLe : e.openedAt ≤ b.openedAt := h'.least e he b hb hSecond.symm
    have hAfter : a.openedAt < e.openedAt := openedAt_lt hMono' (hSecond ▸ hLt)
    have hJoined : second a = second e :=
      le_antisymm (hMono a e hAfter.le) (hEq ▸ hMono e b hLe)
    exact absurd (h.least e he a ha hJoined) (not_le.mpr hAfter)
  exact le_antisymm (not_lt.mp (hNotLt d hd c hc hSame.symm)) (not_lt.mp (hNotLt c hc d hd hSame))

/-- **One candle per second.** The sorted list has one candle of each whole second exactly if the
keys tell the whole seconds apart, and nothing else. -/
theorem onePerSecond_whole_iff [ExactMoments] (candles : List Candle) :
    OnePerSecond Candle.whole candles (sortUnique candles) ↔ Told candles := by
  have hKeys := onePerSecond_sortUnique candles
  have hMono : ∀ a b : Candle, a.openedAt ≤ b.openedAt → a.second ≤ b.second :=
    fun _ _ => Candle.second_mono
  have hMono' : ∀ a b : Candle, a.openedAt ≤ b.openedAt → a.whole ≤ b.whole :=
    fun _ _ => Candle.whole_mono
  constructor
  · intro hWhole c hc d hd
    exact ⟨hKeys.eq_of_eq hMono hMono' hWhole hc hd, hWhole.eq_of_eq hMono' hMono hKeys hc hd⟩
  · intro hTold
    refine ⟨?_, hKeys.subset, fun c hc => ?_, fun d hd c hc hSecond => ?_⟩
    · have hAscending := hKeys.ascending
      rw [List.pairwise_map] at hAscending ⊢
      refine hAscending.imp_of_mem fun {a b} ha hb hLt => ?_
      refine lt_of_le_of_ne (hMono' a b (openedAt_lt hMono hLt).le) fun hEq => hLt.ne ?_
      exact (hTold a (hKeys.subset a ha) b (hKeys.subset b hb)).mpr hEq
    · obtain ⟨d, ⟨hd, hSecond⟩, hOnly⟩ := hKeys.exactly c hc
      refine ⟨d, ⟨hd, (hTold d (hKeys.subset d hd) c hc).mp hSecond⟩, fun other hOther => ?_⟩
      exact hOnly other
        ⟨hOther.1, (hTold other (hKeys.subset other hOther.1) c hc).mpr hOther.2⟩
    · exact hKeys.least d hd c hc ((hTold c hc d (hKeys.subset d hd)).mpr hSecond)

/-- Candles of different times are sorted alike in whatever order they come. -/
theorem sortUnique_perm {candles candles' : List Candle} (h : candles.Perm candles')
    (hTimes : (candles.map Candle.openedAt).Nodup) : sortUnique candles = sortUnique candles' := by
  have hSort : candles.insertionSort Before = candles'.insertionSort Before := by
    refine List.Perm.eq_of_pairwise (fun a b ha hb hLe hGe => ?_) (sorted_before candles)
      (sorted_before candles') ?_
    · rw [List.mem_insertionSort] at ha hb
      exact List.inj_on_of_nodup_map hTimes ha (h.mem_iff.mpr hb) (le_antisymm hLe hGe)
    · exact (List.perm_insertionSort Before candles).trans
        (h.trans (List.perm_insertionSort Before candles').symm)
  rw [sortUnique_eq_firsts, sortUnique_eq_firsts, hSort]

end Binance

namespace CandleIngestService

/-- `_dedupe`. -/
def dedupe (candles : List Candle) : List Candle := firsts Candle.key [] candles

/-- A subsequence that has the first candle of each key, and no other. -/
structure OnePerKey (candles unique : List Candle) : Prop where
  subsequence : unique.Sublist candles
  distinct : (unique.map Candle.key).Nodup
  first : ∀ k, unique.find? (fun c => c.key = k) = candles.find? fun c => c.key = k

theorem onePerKey_dedupe (candles : List Candle) : OnePerKey candles (dedupe candles) where
  subsequence := firsts_sublist
  distinct := nodup_firsts
  first _ := find_firsts List.not_mem_nil

/-- Candles of different seconds have different keys. -/
theorem dedupe_eq_self {candles : List Candle} (h : (candles.map Candle.second).Nodup) :
    dedupe candles = candles := by
  refine firsts_eq_self_iff.mpr (List.Nodup.of_map (fun k : String × String × ℤ => k.2.2) ?_)
  rw [List.map_map]
  exact h

/-- **Deduplication.** The adapter keeps the least candle of each whole second, in ascending
order, exactly if the keys tell the whole seconds of the list apart, as they do up to the year
2514. On every list the order of the input does not matter, the service keeps the first candle of
each key, and drops nothing that the adapter has kept. -/
theorem dedupe_laws [ExactMoments] :
    (∀ candles, Binance.OnePerSecond Candle.whole candles (Binance.sortUnique candles) ↔
        Binance.Told candles) ∧
      (∀ candles : List Candle,
        (∀ c ∈ candles, 0 ≤ c.openedAt ∧ c.openedAt < 2 ^ 34 * 10 ^ 6) → Binance.Told candles) ∧
      (∀ candles candles' : List Candle, candles.Perm candles' →
        (candles.map Candle.openedAt).Nodup →
        Binance.sortUnique candles = Binance.sortUnique candles') ∧
      (∀ candles, OnePerKey candles (dedupe candles) ∧
        dedupe (dedupe candles) = dedupe candles) ∧
      ∀ candles, dedupe (Binance.sortUnique candles) = Binance.sortUnique candles := by
  refine ⟨Binance.onePerSecond_whole_iff, fun _ => Binance.told_of_range,
    fun _ _ => Binance.sortUnique_perm, fun candles => ⟨onePerKey_dedupe candles,
      firsts_idempotent⟩, fun candles => ?_⟩
  exact dedupe_eq_self ((Binance.onePerSecond_sortUnique candles).ascending.imp ne_of_lt)

/-! ## The service -/

structure SyncSummary where
  symbol : Symbol
  timeframe : Timeframe
  fetched : ℤ
  appended : ℤ
  duplicates : ℤ
  deriving DecidableEq, Repr

structure CandleReceived where
  symbol : Symbol
  timeframe : String
  candles : List Candle
  deriving DecidableEq, Repr

/-- The calls of the ports. -/
inductive IngestOp
  | fetchCandles (symbol : Symbol) (timeframe : Timeframe) (since : Option Datetime) (limit : ℤ)
  | append (candles : List Candle)
  | publish (event : CandleReceived)

@[reducible] def IngestRet : IngestOp → Type
  | .fetchCandles _ _ _ _ => List Candle
  | .append _ => ℤ
  | .publish _ => Unit

/-- Await one call of a port. -/
abbrev perform (op : IngestOp) : Coro Raised IngestRet (IngestRet op) := call op

def sync (symbol : Symbol) (timeframe : Timeframe) (since : Option Datetime) (limit : ℤ) :
    Coro Raised IngestRet (Result SyncSummary DomainError) := do
  match ← (perform (.fetchCandles symbol timeframe since limit)).attempt with
  | .error (.domain exc) => return .err exc
  | .error exc => raise exc
  | .ok candles =>
    if candles = [] then return .ok ⟨symbol, timeframe, 0, 0, 0⟩
    else
      let candles := dedupe candles
      let appended : ℤ ← perform (.append candles)
      perform (.publish ⟨symbol, timeframe.value, candles⟩)
      return .ok
        { symbol := symbol
          timeframe := timeframe
          fetched := candles.length
          appended := appended
          duplicates := max 0 (candles.length - appended) }

/-! ## The counts of the summary -/

/-- The counts of a summary belong to the candles that the provider has returned. -/
structure AddsUp (candles : List Candle) (summary : SyncSummary) : Prop where
  fetched : summary.fetched = candles.length
  appended : summary.appended = (candles.map Candle.key).toFinset.card
  duplicates : summary.duplicates = summary.fetched - summary.appended
  dropped : summary.duplicates = candles.length - (dedupe candles).length

variable {σ : Type} {respond : σ → (op : IngestOp) → Except Raised (IngestRet op) × σ}
  {candles : List Candle}

omit [Moments] in
/-- The provider returns these candles, the store reports the number of rows it has appended, and
the bus does not raise. -/
structure Feeds (respond : σ → (op : IngestOp) → Except Raised (IngestRet op) × σ)
    (candles : List Candle) : Prop where
  fetches : ∀ s symbol timeframe since limit,
    (respond s (.fetchCandles symbol timeframe since limit)).1 = .ok candles
  reports : ∀ s appended, (respond s (.append appended)).1 = .ok (appended.length : ℤ)
  publishes : ∀ s event, (respond s (.publish event)).1 = .ok ()

/-- Every count of the summary is taken of the candles that are left. -/
theorem sync_eq (hCandles : candles ≠ []) (hFeeds : Feeds respond candles) (s : σ) (symbol : Symbol)
    (timeframe : Timeframe) (since : Option Datetime) (limit : ℤ) :
    (drive respond s (sync symbol timeframe since limit)).1 =
      .ok (.ok ⟨symbol, timeframe, (dedupe candles).length, (dedupe candles).length, 0⟩) := by
  have hFetch := hFeeds.fetches s symbol timeframe since limit
  have hAppend (t : σ) : respond t (.append (dedupe candles)) =
      (.ok ((dedupe candles).length : ℤ), (respond t (.append (dedupe candles))).2) :=
    Prod.ext (hFeeds.reports t _) rfl
  have hPublish (t : σ) (event : CandleReceived) :
      respond t (.publish event) = (.ok (), (respond t (.publish event)).2) :=
    Prod.ext (hFeeds.publishes t event) rfl
  simp only [sync, drive_bind, drive_attempt, drive_call, hFetch, hCandles, if_false]
  rw [hAppend]
  dsimp only
  rw [hPublish, sub_self, max_self]
  rfl

/-- **The counts of a summary.** They belong to the returned candles exactly if none is dropped. -/
theorem adds_up_iff (hCandles : candles ≠ []) (hFeeds : Feeds respond candles) (s : σ)
    (symbol : Symbol) (timeframe : Timeframe) (since : Option Datetime) (limit : ℤ) :
    (∃ summary, (drive respond s (sync symbol timeframe since limit)).1 = .ok (.ok summary) ∧
      AddsUp candles summary) ↔ (candles.map Candle.key).Nodup := by
  rw [sync_eq hCandles hFeeds]
  have hCount : (dedupe candles).length = (candles.map Candle.key).toFinset.card := length_firsts
  have hWhole : (dedupe candles).length = candles.length ↔ (candles.map Candle.key).Nodup :=
    length_firsts_eq_iff
  constructor
  · rintro ⟨summary, hReturned, hAddsUp⟩
    cases hReturned
    exact hWhole.mp (Int.ofNat_inj.mp hAddsUp.fetched)
  · intro hNodup
    have hLength := hWhole.mpr hNodup
    refine ⟨_, rfl, ⟨?_, ?_, ?_, ?_⟩⟩
    · exact congrArg Int.ofNat hLength
    · exact congrArg Int.ofNat hCount
    · exact (sub_self _).symm
    · rw [hLength, sub_self]

end CandleIngestService

end

/-! ## Over ClickHouse -/

/-- The rows of the store, and the published events. -/
structure Warehouse where
  rows : List CandleRow := []
  published : List CandleIngestService.CandleReceived := []
  deriving DecidableEq, Repr

namespace Warehouse

open CandleIngestService

variable [ClickHouse]

/-- A provider with one answer, the ClickHouse store, and a bus without handlers. -/
def respond (answer : List Candle) (w : Warehouse) :
    (op : IngestOp) → Except Raised (IngestRet op) × Warehouse
  | .fetchCandles _ _ _ _ => (.ok answer, w)
  | .append candles =>
    let (rows, count) := ClickHouseCandleStore.append w.rows candles
    (.ok (count : ℤ), { w with rows := rows })
  | .publish event => (.ok (), { w with published := w.published ++ [event] })

theorem feeds (answer : List Candle) : Feeds (respond answer) answer where
  fetches _ _ _ _ _ := rfl
  reports w candles := by
    have hCount : (ClickHouseCandleStore.append w.rows candles).2 = candles.length := by
      unfold ClickHouseCandleStore.append
      split_ifs with hEmpty
      · rw [hEmpty, List.length_nil]
      · rfl
    exact congrArg (fun count : ℕ => Except.ok (count : ℤ)) hCount
  publishes _ _ := rfl

end Warehouse

namespace Twice

open CandleIngestService

local instance : Moments where
  timestamp := seconds
  strftime _ _ := "1970-01-01"
  strptime _ _ := none

local instance : ExactMoments where
  timestamp_eq _ := rfl

local instance : ClickHouse where
  time t := t
  time_time _ := rfl
  bound t := t
  bound_second _ := rfl

def candle (openedAt : Datetime) (price : ℚ) : Candle where
  symbol := btcUsd
  timeframe := .h1
  openedAt := openedAt
  «open» := price
  high := price
  low := price
  close := price
  volume := 1
  exchange := "yahoo"

/-- Two candles of one second. -/
def repeated : List Candle := [candle 0 1, candle 0 2]

theorem dedupe_repeated : dedupe repeated = [candle 0 1] := by
  have hSame : (candle 0 2).key = (candle 0 1).key := rfl
  rw [dedupe, repeated, firsts, if_neg List.not_mem_nil, firsts,
    if_pos (List.mem_cons.mpr (.inl hSame)), firsts]

/-- Two candles are returned, one of them is dropped, and the summary says neither. -/
theorem sync_repeated :
    (drive (Warehouse.respond repeated) {} (sync btcUsd .h1 none 500)).1 =
        .ok (.ok ⟨btcUsd, .h1, 1, 1, 0⟩) ∧
      ¬∃ summary, (drive (Warehouse.respond repeated) {} (sync btcUsd .h1 none 500)).1 =
        .ok (.ok summary) ∧ AddsUp repeated summary := by
  have hSummary := sync_eq (by simp [repeated]) (Warehouse.feeds repeated) {} btcUsd .h1 none 500
  rw [dedupe_repeated] at hSummary
  refine ⟨hSummary, ?_⟩
  rintro ⟨summary, hReturned, hAddsUp⟩
  rw [hSummary] at hReturned
  cases hReturned
  exact absurd hAddsUp.fetched (by decide)

/-- The candles of three hours. -/
def hourly : List Candle := [candle 0 1, candle 3600000000 2, candle 7200000000 3]

theorem sync_hourly :
    ∃ summary, (drive (Warehouse.respond hourly) {} (sync btcUsd .h1 none 500)).1 =
      .ok (.ok summary) ∧ AddsUp hourly summary :=
  (adds_up_iff (by simp [hourly]) (Warehouse.feeds hourly) {} btcUsd .h1 none 500).mpr
    (by decide +kernel)

theorem repeated_laws :
    Binance.OnePerSecond Candle.whole repeated (Binance.sortUnique repeated) ∧
      OnePerKey repeated (dedupe repeated) ∧
      dedupe (Binance.sortUnique repeated) = Binance.sortUnique repeated :=
  ⟨(dedupe_laws.1 repeated).mpr (dedupe_laws.2.1 repeated (by decide +kernel)),
    (dedupe_laws.2.2.2.1 repeated).1, dedupe_laws.2.2.2.2 repeated⟩

/-- The last microsecond of a second of the year 2520, and the next second. -/
def late : List Candle := [candle 17356291200999999 1, candle 17356291201000000 2]

/-- Both have the key of the next second, which loses its candle. -/
theorem second_lost :
    Binance.sortUnique late = [candle 17356291200999999 1] ∧
      ¬Binance.OnePerSecond Candle.whole late (Binance.sortUnique late) := by
  have hSorted : Binance.sortUnique late = [candle 17356291200999999 1] := by decide +kernel
  refine ⟨hSorted, fun h => ?_⟩
  obtain ⟨c, ⟨hc, hSecond⟩, -⟩ := h.exactly (candle 17356291201000000 2) (by simp [late])
  rw [hSorted, List.mem_singleton] at hc
  rw [hc] at hSecond
  exact absurd hSecond (by decide)

end Twice

end TradingAgent.Marketdata
