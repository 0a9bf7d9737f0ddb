import TradingAgent.Coroutine.Audit
import TradingAgent.Marketdata.Ingest
import TradingAgent.Marketdata.Queries

/-!
# Candles that are announced

Any number of calls of `sync` and `ingest_raw` run interleaved over one store and one bus,
with whatever candles the providers answer. Calls of the ports may raise, before or after
they have taken effect. A call publishes only candles that the store has taken, so a reader
who learns of a candle from the bus finds its time in every range query that covers it, from
then on (`announced_stored`).
-/

namespace TradingAgent.Marketdata

open Coroutine Coro Firsts Table Tooling

namespace CandleIngestService

section Calls

/-! ## Recorded feeds -/

def publishEach : List Candle → Coro Raised IngestRet Unit
  | [] => return ()
  | candle :: rest => do
    perform (.publish ⟨candle.symbol, candle.timeframe.value, [candle]⟩)
    publishEach rest

def ingestRaw (candles : List Candle) : Coro Raised IngestRet Unit :=
  if candles = [] then return ()
  else if candles.any fun c => c.symbol.code = "" then
    raise (.domain
      { cls := .malformedDataError
        message := "candle missing symbol"
        provider := some "marketdata" })
  else do
    let _ ← perform (.append candles)
    publishEach candles

/-! ## What a call publishes -/

/-- The candles that a call was given, and those that the store has taken of it. -/
structure Lot where
  given : List Candle := []
  stored : List Candle := []

/-- A call appends candles that it was given, and publishes candles that the store has
taken. -/
def supply [Moments] : Audit Lot Raised IngestRet where
  may lot
    | .append candles => candles ⊆ lot.given
    | .publish event => event.candles ≠ [] ∧ (event.candles.map Candle.key).Nodup ∧
        event.candles ⊆ lot.stored
    | .fetchCandles _ _ _ _ => True
  rely _ _ := True
  record
    | lot, .fetchCandles _ _ _ _, .ok candles => { lot with given := candles }
    | lot, .append candles, .ok _ => { lot with stored := candles }
    | lot, _, _ => lot

variable [Moments]

theorem dedupe_ne_nil {candles : List Candle} (h : candles ≠ []) : dedupe candles ≠ [] := by
  obtain ⟨c, hc⟩ := List.exists_mem_of_ne_nil candles h
  obtain ⟨d, hd, -⟩ : ∃ d ∈ dedupe candles, d.key = c.key := exists_mem_firsts hc
  exact List.ne_nil_of_mem hd

theorem passes_sync (symbol : Symbol) (timeframe : Timeframe) (since : Option Datetime)
    (limit : ℤ) (lot : Lot) :
    supply.Passes (fun _ _ => True) lot (sync symbol timeframe since limit) := by
  refine Audit.Passes.attempt_bind (P := fun out lot => ∀ candles, out = .ok candles →
    lot.given = candles) (.call trivial fun r _ candles hOk => ?_) fun out lot hGiven => ?_
  · subst hOk
    rfl
  · cases out with
    | error exc => cases exc <;> exact trivial
    | ok candles =>
      obtain rfl := hGiven candles rfl
      dsimp only
      split_ifs with hEmpty
      · exact trivial
      · have hSubset : dedupe lot.given ⊆ lot.given := fun c hc => mem_of_mem_firsts hc
        refine Audit.Passes.bind (P := fun out lot' => ∀ count, out = .ok count →
          lot'.stored = dedupe lot.given) (.call hSubset fun r _ count hOk => ?_)
          (fun count lot' hStored => ?_) fun _ _ _ => trivial
        · subst hOk
          rfl
        · refine Audit.Passes.bind (P := fun _ _ => True) (.call ⟨dedupe_ne_nil hEmpty,
            nodup_firsts, ?_⟩ fun _ _ => trivial) (fun _ _ _ => trivial) fun _ _ _ => trivial
          rw [hStored count rfl]
          exact List.Subset.refl _

theorem passes_publishEach {candles : List Candle} {lot : Lot} (h : candles ⊆ lot.stored) :
    supply.Passes (fun _ _ => True) lot (publishEach candles) := by
  induction candles with
  | nil => exact trivial
  | cons candle rest ih =>
    obtain ⟨hCandle, hRest⟩ := List.cons_subset.mp h
    refine Audit.Passes.bind (P := fun _ lot' => lot' = lot) (.call ?_ fun r _ => ?_)
      (fun _ lot' hSame => ?_) fun _ _ _ => trivial
    · exact ⟨List.cons_ne_nil _ _, List.nodup_singleton _, by simpa using hCandle⟩
    · cases r <;> rfl
    · rw [hSame]
      exact ih hRest

theorem passes_ingestRaw {candles : List Candle} {lot : Lot} (h : candles ⊆ lot.given) :
    supply.Passes (fun _ _ => True) lot (ingestRaw candles) := by
  unfold ingestRaw
  split_ifs
  · exact trivial
  · exact trivial
  · refine Audit.Passes.bind (P := fun out lot' => ∀ count, out = .ok count →
      lot'.stored = candles) (.call h fun r _ count hOk => ?_) (fun count lot' hStored => ?_)
      fun _ _ _ => trivial
    · subst hOk
      rfl
    · refine passes_publishEach ?_
      rw [hStored count rfl]
      exact List.Subset.refl _

end Calls

end CandleIngestService

open CandleIngestService ClickHouseCandleStore

/-! ## Interleaved calls -/

/-- A call of the service. -/
inductive Feed
  | sync (symbol : Symbol) (timeframe : Timeframe) (since : Option Datetime) (limit : ℤ)
  | raw (candles : List Candle)

@[reducible] def Feed.Answer : Feed → Type
  | .sync _ _ _ _ => Result SyncSummary DomainError
  | .raw _ => Unit

/-- The candles that a call is given with its arguments. -/
def Feed.given : Feed → List Candle
  | .sync _ _ _ _ => []
  | .raw candles => candles

def Feed.run [Moments] : (feed : Feed) → Coro Raised IngestRet feed.Answer
  | .sync symbol timeframe since limit => CandleIngestService.sync symbol timeframe since limit
  | .raw candles => ingestRaw candles

theorem Feed.passes [Moments] (feed : Feed) :
    supply.Passes (fun _ _ => True) { given := feed.given } feed.run := by
  cases feed with
  | sync symbol timeframe since limit => exact passes_sync symbol timeframe since limit _
  | raw candles => exact passes_ingestRaw (List.Subset.refl candles)

section Interleaved

variable [ClickHouse] {ι : Type}

/-- The rows after an append. -/
def Warehouse.appended (w : Warehouse) (candles : List Candle) : Warehouse :=
  { w with rows := (append w.rows candles).1 }

omit [ClickHouse] in
def Warehouse.announced (w : Warehouse) (event : CandleReceived) : Warehouse :=
  { w with published := w.published ++ [event] }

/-- The provider answers anything. A call may raise, before or after it has taken effect. -/
def Warehouse.answer : Environment Warehouse Raised IngestRet
  | w, .fetchCandles _ _ _ _, _, w' => w' = w
  | w, .append candles, r, w' =>
    (r = .ok ((append w.rows candles).2 : ℤ) ∧ w' = w.appended candles) ∨
      ∃ e, r = .error e ∧ (w' = w ∨ w' = w.appended candles)
  | w, .publish event, r, w' =>
    (r = .ok () ∧ w' = w.announced event) ∨
      ∃ e, r = .error e ∧ (w' = w ∨ w' = w.announced event)

abbrev FeedConfig (feeds : ι → Feed) := Config Warehouse Raised IngestRet fun i => (feeds i).Answer

abbrev FeedLog (feeds : ι → Feed) := Log Warehouse Raised IngestRet fun i => (feeds i).Answer

/-- All calls before their first step. -/
def fed [Moments] (feeds : ι → Feed) (w : Warehouse) : FeedConfig feeds where
  state := w
  threads i := (feeds i).run

/-- A candle that a call was given, with its arguments or by the provider. -/
def Supplied (feeds : ι → Feed) (events : List (Event Raised IngestRet ι)) (c : Candle) : Prop :=
  (∃ i, c ∈ (feeds i).given) ∨
    ∃ e ∈ events, ∃ symbol timeframe since limit candles, c ∈ candles ∧
      e = ⟨e.thread, .fetchCandles symbol timeframe since limit, .ok candles⟩

variable [Moments]

/-- The store has taken the candles `appended`, all of them supplied, and what is recorded of
the calls; the bus has events of them only. -/
structure Ledger (feeds : ι → Feed) (w₀ : Warehouse) (history : List (List Candle))
    (events : List (Event Raised IngestRet ι)) (w : Warehouse) (lots : ι → Lot) : Prop where
  given : ∀ i, ∀ c ∈ (lots i).given, Supplied feeds events c
  taken : ∃ appended, w.rows = appends (history ++ [appended]) ∧
    (∀ c ∈ appended, Supplied feeds events c) ∧ (∀ i, (lots i).stored ⊆ appended) ∧
    ∃ announced, w.published = w₀.published ++ announced ∧ ∀ event ∈ announced,
      event.candles ≠ [] ∧ (event.candles.map Candle.key).Nodup ∧ event.candles ⊆ appended

omit [ClickHouse] [Moments] in
theorem Supplied.mono {feeds : ι → Feed} {events : List (Event Raised IngestRet ι)} {c : Candle}
    (e : Event Raised IngestRet ι) (h : Supplied feeds events c) :
    Supplied feeds (events ++ [e]) c := by
  rcases h with hGiven | ⟨e', he', hAnswer⟩
  · exact .inl hGiven
  · exact .inr ⟨e', List.mem_append_left _ he', hAnswer⟩

namespace Ledger

variable [DecidableEq ι] {feeds : ι → Feed} {w₀ w w' : Warehouse} {history : List (List Candle)}
  {events : List (Event Raised IngestRet ι)} {e : Event Raised IngestRet ι} {lots : ι → Lot}
  {i : ι} {lot : Lot}

omit [Moments] in
theorem rows_appended {appended candles : List Candle}
    (h : w.rows = appends (history ++ [appended])) :
    (w.appended candles).rows = appends (history ++ [appended ++ candles]) := by
  unfold Warehouse.appended append
  dsimp only
  rw [h]
  split
  · next hEmpty => rw [hEmpty, List.append_nil]
  · simp [appends_eq]

section Move

variable (h : Ledger feeds w₀ history events w lots)
include h

/-- A step that leaves the store and the bus as they are. -/
theorem kept (hGiven : ∀ c ∈ lot.given, Supplied feeds (events ++ [e]) c)
    (hStored : lot.stored = (lots i).stored) :
    Ledger feeds w₀ history (events ++ [e]) w (Function.update lots i lot) where
  given := by
    rw [Function.forall_update_iff lots fun _ lot =>
      ∀ c ∈ lot.given, Supplied feeds (events ++ [e]) c]
    exact ⟨hGiven, fun j _ c hc => (h.given j c hc).mono e⟩
  taken := by
    obtain ⟨appended, hRows, hSupplied, hTaken, hPublished⟩ := h.taken
    refine ⟨appended, hRows, fun c hc => (hSupplied c hc).mono e, ?_, hPublished⟩
    rw [Function.forall_update_iff lots fun _ lot => lot.stored ⊆ appended]
    exact ⟨hStored ▸ hTaken i, fun j _ => hTaken j⟩

/-- The store takes candles that a call was given; the call may learn of it. -/
theorem stocked {candles : List Candle} (hCandles : candles ⊆ (lots i).given)
    (hGiven : lot.given = (lots i).given)
    (hStored : lot.stored = candles ∨ lot.stored = (lots i).stored) :
    Ledger feeds w₀ history (events ++ [e]) (w.appended candles) (Function.update lots i lot) where
  given := by
    rw [Function.forall_update_iff lots fun _ lot =>
      ∀ c ∈ lot.given, Supplied feeds (events ++ [e]) c, hGiven]
    exact ⟨fun c hc => (h.given i c hc).mono e, fun j _ c hc => (h.given j c hc).mono e⟩
  taken := by
    obtain ⟨appended, hRows, hSupplied, hTaken, announced, hPublished, hAnnounced⟩ := h.taken
    have hLeft : appended ⊆ appended ++ candles := List.subset_append_left _ _
    refine ⟨appended ++ candles, rows_appended hRows, fun c hc => ?_, ?_, announced, hPublished,
      fun event hEvent => ?_⟩
    · rcases List.mem_append.mp hc with hc | hc
      · exact (hSupplied c hc).mono e
      · exact (h.given i c (hCandles hc)).mono e
    · rw [Function.forall_update_iff lots fun _ lot => lot.stored ⊆ appended ++ candles]
      refine ⟨?_, fun j _ => List.Subset.trans (hTaken j) hLeft⟩
      rcases hStored with hStored | hStored
      · exact hStored ▸ List.subset_append_right _ _
      · exact hStored ▸ List.Subset.trans (hTaken i) hLeft
    · obtain ⟨hNe, hKeys, hSubset⟩ := hAnnounced event hEvent
      exact ⟨hNe, hKeys, List.Subset.trans hSubset hLeft⟩

/-- The bus takes an event of candles that the store has. -/
theorem told {event : CandleReceived} (hNe : event.candles ≠ [])
    (hKeys : (event.candles.map Candle.key).Nodup) (hCandles : event.candles ⊆ (lots i).stored)
    (hLot : lot = lots i) :
    Ledger feeds w₀ history (events ++ [e]) (w.announced event)
      (Function.update lots i lot) where
  given := by
    rw [hLot, Function.update_eq_self]
    exact fun j c hc => (h.given j c hc).mono e
  taken := by
    obtain ⟨appended, hRows, hSupplied, hTaken, announced, hPublished, hAnnounced⟩ := h.taken
    rw [hLot, Function.update_eq_self]
    refine ⟨appended, hRows, fun c hc => (hSupplied c hc).mono e, hTaken, announced ++ [event],
      ?_, fun other hOther => ?_⟩
    · rw [← List.append_assoc, ← hPublished]
      rfl
    · rcases List.mem_append.mp hOther with hOther | hOther
      · exact hAnnounced other hOther
      · rw [List.mem_singleton.mp hOther]
        exact ⟨hNe, hKeys, List.Subset.trans hCandles (hTaken i)⟩

/-- Every answer to a call that a service may make. -/
theorem step {op : IngestOp} {r : Except Raised (IngestRet op)} (hMay : supply.may (lots i) op)
    (hAnswer : Warehouse.answer w op r w') :
    Ledger feeds w₀ history (events ++ [⟨i, op, r⟩]) w'
      (Function.update lots i (supply.record (lots i) op r)) := by
  cases op with
  | fetchCandles symbol timeframe since limit =>
    obtain rfl := hAnswer
    cases r with
    | ok candles =>
      refine h.kept (fun c hc => .inr ⟨_, List.mem_append_right _ (List.mem_singleton_self _),
        symbol, timeframe, since, limit, candles, hc, rfl⟩) rfl
    | error e => exact h.kept (fun c hc => (h.given i c hc).mono _) rfl
  | append candles =>
    rcases hAnswer with ⟨rfl, rfl⟩ | ⟨e, rfl, rfl | rfl⟩
    · exact h.stocked hMay rfl (.inl rfl)
    · exact h.kept (fun c hc => (h.given i c hc).mono _) rfl
    · exact h.stocked hMay rfl (.inr rfl)
  | publish event =>
    obtain ⟨hNe, hKeys, hCandles⟩ := hMay
    rcases hAnswer with ⟨rfl, rfl⟩ | ⟨e, rfl, rfl | rfl⟩
    · exact h.told hNe hKeys hCandles rfl
    · exact h.kept (fun c hc => (h.given i c hc).mono _) rfl
    · exact h.told hNe hKeys hCandles rfl

end Move

end Ledger

omit [Moments] in
/-- A stored candle is found by its time, perhaps with the values of a later one. -/
theorem found_of_stored [PyText] [AsciiUpper] {history : List (List Candle)} {candle : Candle}
    (hStored : candle ∈ history.flatten) {start stop : Datetime}
    (hStart : ClickHouse.bound start ≤ time candle) (hStop : time candle ≤ ClickHouse.bound stop) :
    ∃ answer, CandleQueryService.range (appends history) candle.symbol candle.timeframe start stop =
      .ok answer ∧ ∃ found ∈ answer, slot found = slot candle := by
  refine ⟨_, queryRange_eq history candle.symbol candle.timeframe start stop, ?_⟩
  obtain ⟨row, hLast⟩ := exists_last slot hStored
  obtain ⟨-, hSlot⟩ := last_eq_some hLast
  obtain ⟨hCode, hTimeframe, hTime⟩ := slot_eq.mp hSlot
  have hTimes : time row = time candle := hTime
  refine ⟨restored row, List.mem_map.mpr ⟨row, mem_found.mpr ⟨?_, hCode, hTimeframe, ?_, ?_⟩, rfl⟩,
    ?_⟩
  · exact mem_held.mpr (hSlot ▸ hLast)
  · exact hStart.trans_eq hTimes.symm
  · exact hTimes.le.trans hStop
  · rw [← hSlot]
    exact slot_eq.mpr ⟨rfl, rfl, ClickHouse.time_time _⟩

/-- **Announced candles are stored.** However the calls interleave, whatever the providers
answer, and whichever calls of the ports raise, before or after they have taken effect: the
store has grown by candles that the calls were given, and every event on the bus is of at
least one candle, of no key twice, and of candles that the store has, so that from then on
every range query that covers a candle's time finds a candle of its key. -/
theorem announced_stored [PyText] [AsciiUpper] [DecidableEq ι] {feeds : ι → Feed} {w₀ : Warehouse}
    {history : List (List Candle)} {c : FeedConfig feeds} {log : FeedLog feeds}
    (hRows : w₀.rows = appends history) (h : Run Warehouse.answer (fed feeds w₀) log c) :
    ∃ appended announced, c.state.rows = appends (history ++ [appended]) ∧
      c.state.published = w₀.published ++ announced ∧
      (∀ candle ∈ appended, Supplied feeds (log.map Prod.snd) candle) ∧
      ∀ event ∈ announced, event.candles ≠ [] ∧ (event.candles.map Candle.key).Nodup ∧
        ∀ candle ∈ event.candles, candle ∈ appended ∧ ∀ start stop,
          ClickHouse.bound start ≤ time candle → time candle ≤ ClickHouse.bound stop →
            ∃ answer, CandleQueryService.range c.state.rows candle.symbol candle.timeframe start
              stop = .ok answer ∧ ∃ found ∈ answer, slot found = slot candle := by
  have hStart : Ledger feeds w₀ history [] w₀ fun i => { given := (feeds i).given } := by
    refine ⟨fun i c hc => .inl ⟨i, hc⟩, [], ?_, by simp, fun i => List.Subset.refl [], [],
      by simp, by simp⟩
    rw [hRows]
    simp [appends_eq]
  obtain ⟨lots, hLedger, -⟩ := h.audited (A := supply) (J := Ledger feeds w₀ history) hStart
    (fun i => (feeds i).passes) fun events w lots i op r w' hBefore hMay hAnswer =>
      ⟨trivial, hBefore.step hMay hAnswer⟩
  obtain ⟨appended, hStore, hSupplied, -, announced, hPublished, hAnnounced⟩ := hLedger.taken
  refine ⟨appended, announced, hStore, hPublished, hSupplied, fun event hEvent => ?_⟩
  obtain ⟨hNe, hKeys, hSubset⟩ := hAnnounced event hEvent
  refine ⟨hNe, hKeys, fun candle hCandle => ⟨hSubset hCandle, fun start stop hLow hHigh => ?_⟩⟩
  rw [hStore]
  refine found_of_stored ?_ hLow hHigh
  simp only [List.flatten_append, List.flatten_singleton, List.mem_append]
  exact .inr (hSubset hCandle)

omit [Moments] in
/-- The warehouse without failures. -/
theorem Warehouse.answer_respond (candles : List Candle) (w : Warehouse) (op : IngestOp) :
    Warehouse.answer w op (respond candles w op).1 (respond candles w op).2 := by
  cases op with
  | fetchCandles symbol timeframe since limit => exact rfl
  | append appended => exact .inl ⟨rfl, rfl⟩
  | publish event => exact .inl ⟨rfl, rfl⟩

end Interleaved

/-! ## Two calls -/

namespace Feeding

open Queried

local instance : PyText := asciiText

local instance : AsciiUpper := ⟨fun _ _ => rfl⟩

local instance : Moments where
  timestamp := seconds
  strftime _ _ := "1970-01-01"
  strptime _ _ := none

local instance : ClickHouse := Queried.instClickHouse

/-- A recorded candle, and a synchronization that is answered with a later one. -/
def feeds : Bool → Feed
  | true => .raw [candle 0 1]
  | false => .sync (candle 0 1).symbol .d1 none 500

/-- The synchronization comes between the two steps of the recorded feed. -/
def ended : FeedLog feeds × FeedConfig feeds :=
  simulate (fed feeds {}) ([true, false, false, false, true].map fun i =>
    (i, Warehouse.respond [candle day 2]))

theorem ended_run : Run Warehouse.answer (fed feeds {}) ended.1 ended.2 :=
  run_simulate fun turn hTurn w op => by
    obtain ⟨i, -, rfl⟩ := List.mem_map.mp hTurn
    exact Warehouse.answer_respond [candle day 2] w op

theorem feeds_stored : ended.2.state.published.length = 2 ∧
    ∃ appended announced, ended.2.state.rows = appends ([] ++ [appended]) ∧
      ended.2.state.published = [] ++ announced ∧
        ∀ event ∈ announced, event.candles ≠ [] ∧ event.candles ⊆ appended := by
  obtain ⟨appended, announced, hRows, hPublished, -, hAnnounced⟩ :=
    announced_stored (show ({} : Warehouse).rows = appends [] from rfl) ended_run
  refine ⟨by decide +kernel, appended, announced, hRows, hPublished, fun event hEvent => ?_⟩
  obtain ⟨hNe, -, hCandles⟩ := hAnnounced event hEvent
  exact ⟨hNe, fun candle hCandle => (hCandles candle hCandle).1⟩

end Feeding

end TradingAgent.Marketdata
