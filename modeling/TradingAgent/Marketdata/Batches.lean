import TradingAgent.Marketdata.Tickers
import TradingAgent.Word.Collect

/-!
# Batches of tickers

`fetch_tickers` of three of the adapters asks for one symbol after another, each through the
policy, and maps what is returned outside of it. The first symbol that is not answered ends the
batch, and nothing is returned (`batches`). The adapter of Binance asks for all symbols at once
and returns the tickers of those that the exchange knows (`Binance.tickersOf_codes`).
-/

namespace TradingAgent.Marketdata

open Collecting Coroutine Tooling

section

variable {C P R : Type}

/-- One call after another, until one of them raises. -/
inductive Source.Each (source : Source C P R) :
    Fields → List C → Except Raised (List R) → Fields → Prop
  | nil (f : Fields) : Each source f [] (.ok []) f
  | raised {f f' : Fields} {c : C} {e : Raised} (hFetches : source.Fetches f c (.error e) f')
      (cs : List C) : Each source f (c :: cs) (.error e) f'
  | cons {f f' f'' : Fields} {c : C} {cs : List C} {r : R} {out : Except Raised (List R)}
      (hFetches : source.Fetches f c (.ok r) f') (hRest : Each source f' cs out f'') :
      Each source f (c :: cs) ((r :: ·) <$> out) f''

/-- What the vendor has for a call, and what it is mapped to. -/
def Source.answer (source : Source C P R) (c : C) : Except Raised R :=
  source.fetch c >>= source.map c

variable {source : Source C P R} {retry : RetryPolicy} {breaker : CircuitBreaker} {f f' : Fields}
  {c : C} {cs : List C} {out : Except Raised R} {outs : Except Raised (List R)}

/-- A call that the adapter does not refuse itself runs through the policy. -/
theorem Source.Fetches.run (hAdmits : ∀ c, source.refused c = none)
    (hRetry : source.policy.retry = some retry) (hBreaker : source.policy.breaker = some breaker)
    (h : source.Fetches f c out f') :
    (f.opened = true → out = .error (.domain circuitOpen)) ∧
      (f.opened = false → ∀ payload, source.fetch c = .ok payload →
        out = source.map c payload ∧ f'.opened = false) := by
  refine ⟨fun hOpened => ?_, fun hClosed payload hFetch => ?_⟩
  · cases h with
    | refused exc hRefused =>
      rw [hAdmits] at hRefused
      cases hRefused
    | ran hAdmitted hRun =>
      rw [(steady_run hRetry hBreaker hRun).2.1 hOpened]
      rfl
  · refine ⟨h.of_closed hRetry hBreaker hClosed (hAdmits c) hFetch, ?_⟩
    cases h with
    | refused => exact hClosed
    | ran hAdmitted hRun =>
      rw [hFetch] at hRun
      have hFlag := (steady_run hRetry hBreaker hRun).1.1
      exact hFlag.trans hClosed

/-- What a batch returns are the answers to its calls, in their order. -/
theorem Source.Each.answered (hRetry : source.policy.retry = some retry)
    (hBreaker : source.policy.breaker = some breaker) (h : source.Each f cs outs f') {rs : List R}
    (hOk : outs = .ok rs) : List.Forall₂ (fun c r => source.answer c = .ok r) cs rs := by
  induction h generalizing rs with
  | nil f =>
    cases hOk
    exact .nil
  | raised => cases hOk
  | @cons f f' f'' c cs r out hFetches hRest ih =>
    obtain ⟨-, payload, hFetch, hMap⟩ := hFetches.mapped hRetry hBreaker rfl
    cases out with
    | error e => cases hOk
    | ok rest =>
      cases hOk
      exact .cons (bind_eq_ok.mpr ⟨payload, hFetch, hMap⟩) (ih rfl)

/-- Through a closed breaker a batch returns, if all of its calls are answered. -/
theorem Source.Each.of_answered (hAdmits : ∀ c, source.refused c = none)
    (hRetry : source.policy.retry = some retry) (hBreaker : source.policy.breaker = some breaker)
    (h : source.Each f cs outs f') (hClosed : f.opened = false) {rs : List R}
    (hAll : List.Forall₂ (fun c r => source.answer c = .ok r) cs rs) : outs = .ok rs := by
  induction h generalizing rs with
  | nil f =>
    cases hAll
    rfl
  | @raised f f' c e hFetches cs =>
    obtain ⟨r, rs, hAnswer, -⟩ := List.forall₂_cons_left_iff.mp hAll
    obtain ⟨payload, hFetch, hMap⟩ := bind_eq_ok.mp hAnswer
    have hOut := ((hFetches.run hAdmits hRetry hBreaker).2 hClosed payload hFetch).1
    rw [hMap] at hOut
    cases hOut
  | @cons f f' f'' c cs r out hFetches hRest ih =>
    obtain ⟨r', rs', hAnswer, hTail, rfl⟩ := List.forall₂_cons_left_iff.mp hAll
    obtain ⟨payload, hFetch, hMap⟩ := bind_eq_ok.mp hAnswer
    obtain ⟨hOut, hStill⟩ := (hFetches.run hAdmits hRetry hBreaker).2 hClosed payload hFetch
    rw [ih hStill hTail]
    cases hOut.trans hMap
    rfl

/-- Every batch ends. -/
theorem Source.Each.total (hAdmits : ∀ c, source.refused c = none)
    (hRetry : source.policy.retry = some retry) (hBreaker : source.policy.breaker = some breaker)
    (f : Fields) (cs : List C) : ∃ outs f', source.Each f cs outs f' := by
  induction cs generalizing f with
  | nil => exact ⟨_, _, .nil f⟩
  | cons c cs ih =>
    obtain ⟨out, f₁, made, hRun⟩ := steady_ends hRetry hBreaker (source.fetch c) f
    have hFetches : source.Fetches f c (out >>= source.map c) f₁ := .ran (hAdmits c) hRun
    cases hOut : out >>= source.map c with
    | error e => exact ⟨_, _, .raised (hOut ▸ hFetches) cs⟩
    | ok r =>
      obtain ⟨outs, f₂, hRest⟩ := ih f₁
      exact ⟨_, _, .cons (hOut ▸ hFetches) hRest⟩

/-- The batch of an adapter whose breaker is open raises, and one whose breaker is closed
returns what is mapped for each call, in their order, if all of them are answered. -/
def Source.AllOrNone (source : Source C P R) (f : Fields) (cs : List C)
    (outs : Except Raised (List R)) : Prop :=
  (f.opened = true → cs ≠ [] → outs = .error (.domain circuitOpen)) ∧
    (f.opened = false → ∀ rs, outs = .ok rs ↔
      List.Forall₂ (fun c r => source.answer c = .ok r) cs rs)

theorem Source.Each.all_or_none (hAdmits : ∀ c, source.refused c = none)
    (hRetry : source.policy.retry = some retry) (hBreaker : source.policy.breaker = some breaker)
    (h : source.Each f cs outs f') : source.AllOrNone f cs outs := by
  refine ⟨fun hOpened hSome => ?_, fun hClosed rs => ⟨h.answered hRetry hBreaker,
    h.of_answered hAdmits hRetry hBreaker hClosed⟩⟩
  cases h with
  | nil => exact absurd rfl hSome
  | raised hFetches =>
    cases (hFetches.run hAdmits hRetry hBreaker).1 hOpened
    rfl
  | cons hFetches => cases (hFetches.run hAdmits hRetry hBreaker).1 hOpened

/-- The tickers of a batch are those of its symbols. -/
theorem Source.Each.symbols {source : Source Symbol P Ticker} {symbols : List Symbol}
    {outs : Except Raised (List Ticker)} (hRetry : source.policy.retry = some retry)
    (hBreaker : source.policy.breaker = some breaker)
    (hMap : ∀ symbol payload ticker, source.map symbol payload = .ok ticker →
      ticker.symbol = symbol) (h : source.Each f symbols outs f') (tickers : List Ticker)
    (hOk : outs = .ok tickers) : tickers.map Ticker.symbol = symbols := by
  have hEach := (h.answered hRetry hBreaker hOk).imp fun symbol ticker hAnswer => by
    obtain ⟨payload, -, hMapped⟩ := bind_eq_ok.mp hAnswer
    exact hMap symbol payload ticker hMapped
  rw [← List.forall₂_eq_eq_eq, List.forall₂_map_left_iff]
  exact hEach.flip

end

/-! ## The adapters -/

theorem tickerOf_symbol {symbol : Symbol} {timestamp : Datetime} {bid ask last volume : Decimal}
    {exchange : String} {ticker : Ticker}
    (h : tickerOf symbol timestamp bid ask last volume exchange = .ok ticker) :
    ticker.symbol = symbol := by
  unfold tickerOf at h
  split at h
  · cases h
    rfl
  · cases h

namespace Yahoo

variable [JsonLibrary] [YahooModels]

/-- `fetch_tickers`, symbol by symbol. -/
def tickerSource (config : YahooConfig) (vendor : Request → Exchange) :
    Source Symbol YahooChartResult Ticker where
  policy :=
    { retry := some { retries := config.retries }
      breaker := some { failureThreshold := config.circuitOpenAfter }
      limiter := true }
  refused _ := none
  fetch symbol := chartOf (vendor (chartRequest (toYahooSymbol symbol) "1d" none))
  map symbol chart := toTicker chart symbol exchange

omit [JsonLibrary] [YahooModels] in
theorem toTicker_symbol {chart : YahooChartResult} {symbol : Symbol} {exchange : String}
    {ticker : Ticker} (h : toTicker chart symbol exchange = .ok ticker) :
    ticker.symbol = symbol := by
  unfold toTicker at h
  split at h
  · obtain ⟨timestamp, -, hTicker⟩ := bind_eq_ok.mp (mapError_eq_ok_iff.mp h)
    exact tickerOf_symbol hTicker
  · cases h

end Yahoo

namespace TwelveData

/-- `quote` is `TwelveQuote.model_validate(payload)`, or the text of the `ValidationError`. -/
class QuoteModels where
  quote : Json → Except String TwelveQuote

variable [JsonLibrary] [QuoteModels] [PyText] [TickerTexts]

def quoteRequest (config : TwelveDataConfig) (symbolCode : String) : Request where
  path := "/quote"
  params := [("symbol", .str symbolCode), ("apikey", .str config.apiKey)]

omit [PyText] [TickerTexts] in
/-- The rest of `fetch_quote`, once the exchange is over. -/
def quoteOf (exchanged : Exchange) : Except Raised TwelveQuote := do
  let payload ← getJson provider exchanged
  raiseIfError payload
  match QuoteModels.quote payload with
  | .ok quote => .ok quote
  | .error text =>
    .error (malformed ("twelve data payload did not match the expected schema: " ++ text))

/-- `fetch_tickers` at `now`, symbol by symbol. -/
def tickerSource (config : TwelveDataConfig) (vendor : Request → Exchange) (now : Datetime) :
    Source Symbol TwelveQuote Ticker where
  policy :=
    { retry := some { retries := config.retries }
      breaker := some { failureThreshold := config.circuitOpenAfter }
      limiter := true }
  refused _ := none
  fetch symbol := quoteOf (vendor (quoteRequest config symbol.code))
  map symbol quote := toTicker quote symbol now exchange

omit [JsonLibrary] [QuoteModels] in
theorem toTicker_symbol {quote : TwelveQuote} {symbol : Symbol} {now : Datetime}
    {exchange : String} {ticker : Ticker} (h : toTicker quote symbol now exchange = .ok ticker) :
    ticker.symbol = symbol := by
  unfold toTicker at h
  split at h
  · cases h
  · split at h
    · cases h
    · obtain ⟨timestamp, -, hRest⟩ := bind_eq_ok.mp (mapError_eq_ok_iff.mp h)
      obtain ⟨volume, -, hTicker⟩ := bind_eq_ok.mp hRest
      exact tickerOf_symbol hTicker

end TwelveData

namespace Kraken

variable [JsonLibrary] [KrakenModels] [PyText] [TickerTexts]

def tickerRequest (pair : String) : Request where
  path := "/0/public/Ticker"
  params := [("pair", .str pair)]

/-- `fetch_tickers` at `now`, symbol by symbol. -/
def tickerSource (config : KrakenConfig) (vendor : Request → Exchange) (now : Datetime) :
    Source Symbol (List (String × Json)) Ticker where
  policy :=
    { retry := some { retries := config.retries }
      breaker := some { failureThreshold := config.circuitOpenAfter }
      limiter := true }
  refused _ := none
  fetch symbol := resultOf (vendor (tickerRequest (toKrakenPair symbol)))
  map symbol result := do toTicker (← firstEntry result) symbol now exchange

omit [KrakenModels] in
theorem toTicker_symbol {entry : List (String × Json)} {symbol : Symbol} {now : Datetime}
    {exchange : String} {ticker : Ticker} (h : toTicker entry symbol now exchange = .ok ticker) :
    ticker.symbol = symbol := by
  obtain ⟨bid, -, hRest⟩ := bind_eq_ok.mp (mapError_eq_ok_iff.mp h)
  obtain ⟨ask, -, hRest⟩ := bind_eq_ok.mp hRest
  obtain ⟨last, -, hRest⟩ := bind_eq_ok.mp hRest
  obtain ⟨volume, -, hTicker⟩ := bind_eq_ok.mp hRest
  exact tickerOf_symbol hTicker

end Kraken

namespace Binance

variable [JsonLibrary] [PyText] [IntText] [TickerTexts]

/-- What the SDK returns for the codes, or for all symbols, or raises. -/
abbrev TickerSdk := Option (List String) → Except SdkError (List (String × List (String × Json)))

omit [JsonLibrary] [IntText] [TickerTexts] in
def codeOf (symbol : Symbol) : String := PyText.upper symbol.code

omit [JsonLibrary] [IntText] [TickerTexts] in
/-- `by_code[code]`, for the code of one of the symbols: the last symbol of the code. -/
def byCode (symbols : List Symbol) (symbol : Symbol) : Symbol :=
  (symbols.reverse.find? fun other => codeOf other = codeOf symbol).getD symbol

/-- The tickers of the symbols that the exchange knows. -/
def tickersOf (symbols : List Symbol) (raw : List (String × List (String × Json))) :
    Except Raised (List Ticker) :=
  (symbols.filterMap fun symbol =>
    (raw.lookup (codeOf symbol)).map fun entry => (byCode symbols symbol, entry)).mapM
      fun known => toTicker known.2 known.1 exchange

/-- `fetch_tickers`. Without symbols it asks for all of them. -/
def tickerSource (config : BinanceConfig) (sdk : TickerSdk) :
    Source (List Symbol) (List (String × List (String × Json))) (List Ticker) where
  policy :=
    { retry := some { retries := config.retries }
      breaker := some { failureThreshold := config.circuitOpenAfter }
      limiter := true }
  refused _ := none
  fetch symbols :=
    (sdk (if symbols = [] then none else some (symbols.map codeOf))).mapError fun exc =>
      .domain (handleBinanceError exc)
  map := tickersOf

theorem toTicker_symbol {raw : List (String × Json)} {symbol : Symbol} {exchange : String}
    {ticker : Ticker} (h : toTicker raw symbol exchange = .ok ticker) :
    ticker.symbol = symbol := by
  obtain ⟨value, -, hRest⟩ := bind_eq_ok.mp (mapError_eq_ok_iff.mp h)
  obtain ⟨timestamp, -, hRest⟩ := bind_eq_ok.mp hRest
  obtain ⟨bid, -, hRest⟩ := bind_eq_ok.mp hRest
  obtain ⟨ask, -, hRest⟩ := bind_eq_ok.mp hRest
  obtain ⟨last, -, hRest⟩ := bind_eq_ok.mp hRest
  obtain ⟨volume, -, hTicker⟩ := bind_eq_ok.mp hRest
  exact tickerOf_symbol hTicker

omit [JsonLibrary] [IntText] [TickerTexts] in
theorem codeOf_byCode (symbols : List Symbol) (symbol : Symbol) :
    codeOf (byCode symbols symbol) = codeOf symbol := by
  unfold byCode
  cases hFound : symbols.reverse.find? fun other => codeOf other = codeOf symbol with
  | none => rfl
  | some other =>
    have hSame := List.find?_some hFound
    exact of_decide_eq_true hSame

omit [JsonLibrary] [IntText] [TickerTexts] in
theorem known_codes (all symbols : List Symbol) (raw : List (String × List (String × Json))) :
    (symbols.filterMap fun symbol => (raw.lookup (codeOf symbol)).map fun entry =>
        (byCode all symbol, entry)).map (fun known => codeOf known.1) =
      (symbols.map codeOf).filter fun code => (raw.lookup code).isSome := by
  induction symbols with
  | nil => rfl
  | cons symbol rest ih =>
    rw [List.map_cons]
    cases hKnown : raw.lookup (codeOf symbol) with
    | none =>
      rw [List.filterMap_cons_none (by rw [hKnown]; rfl),
        List.filter_cons_of_neg (by simp [hKnown]), ih]
    | some entry =>
      rw [List.filterMap_cons_some (by rw [hKnown]; rfl),
        List.filter_cons_of_pos (by simp [hKnown]), List.map_cons, ih, codeOf_byCode]

/-- The tickers are those of the codes that the exchange knows, in the order of the symbols. -/
theorem tickersOf_codes {symbols : List Symbol} {raw : List (String × List (String × Json))}
    {tickers : List Ticker} (h : tickersOf symbols raw = .ok tickers) :
    tickers.map (fun ticker => codeOf ticker.symbol) =
      (symbols.map codeOf).filter fun code => (raw.lookup code).isSome := by
  rw [← known_codes symbols symbols raw]
  have hEach := (mapM_eq_ok_iff.mp h).imp fun known ticker hTicker =>
    congrArg codeOf (toTicker_symbol hTicker)
  rw [← List.forall₂_eq_eq_eq, List.forall₂_map_left_iff, List.forall₂_map_right_iff]
  exact hEach.flip

end Binance

/-- **Batches.** Against vendors that answer each request the same whenever it is made,
`fetch_tickers` of the adapters of Yahoo, Twelve Data and Kraken is all or none: through a closed
breaker it returns the tickers of all symbols, in their order, just if every symbol is answered,
and it raises otherwise. That of Binance returns the tickers that are mapped from the answer, those
of the codes that the exchange knows, in the order of the symbols. Through an open breaker a batch
raises. -/
theorem batches [JsonLibrary] [PyText] [IntText] [TickerTexts] [Yahoo.YahooModels]
    [TwelveData.QuoteModels] [Kraken.KrakenModels] (yahoo : Yahoo.YahooConfig)
    (twelve : TwelveData.TwelveDataConfig) (kraken : Kraken.KrakenConfig)
    (binance : Binance.BinanceConfig) (vendor : Request → Exchange) (sdk : Binance.TickerSdk)
    (now : Datetime) (f f' : Fields) (symbols : List Symbol) (outs : Except Raised (List Ticker)) :
    ((Yahoo.tickerSource yahoo vendor).Each f symbols outs f' →
        (Yahoo.tickerSource yahoo vendor).AllOrNone f symbols outs ∧
          ∀ tickers, outs = .ok tickers → tickers.map Ticker.symbol = symbols) ∧
      ((TwelveData.tickerSource twelve vendor now).Each f symbols outs f' →
        (TwelveData.tickerSource twelve vendor now).AllOrNone f symbols outs ∧
          ∀ tickers, outs = .ok tickers → tickers.map Ticker.symbol = symbols) ∧
      ((Kraken.tickerSource kraken vendor now).Each f symbols outs f' →
        (Kraken.tickerSource kraken vendor now).AllOrNone f symbols outs ∧
          ∀ tickers, outs = .ok tickers → tickers.map Ticker.symbol = symbols) ∧
      ((Binance.tickerSource binance sdk).Fetches f symbols outs f' →
        (f.opened = true → outs = .error (.domain circuitOpen)) ∧
          (f.opened = false → ∀ tickers, outs = .ok tickers ↔
            ∃ raw, (Binance.tickerSource binance sdk).fetch symbols = .ok raw ∧
              Binance.tickersOf symbols raw = .ok tickers) ∧
          ∀ tickers, outs = .ok tickers →
            ∃ raw, (Binance.tickerSource binance sdk).fetch symbols = .ok raw ∧
              tickers.map (fun ticker => Binance.codeOf ticker.symbol) =
                (symbols.map Binance.codeOf).filter fun code => (raw.lookup code).isSome) := by
  refine ⟨fun h => ⟨h.all_or_none (fun _ => rfl) rfl rfl, h.symbols rfl rfl ?_⟩,
    fun h => ⟨h.all_or_none (fun _ => rfl) rfl rfl, h.symbols rfl rfl ?_⟩,
    fun h => ⟨h.all_or_none (fun _ => rfl) rfl rfl, h.symbols rfl rfl ?_⟩, fun h =>
    ⟨(h.run (fun _ => rfl) rfl rfl).1, fun hClosed tickers => ⟨fun hOk => ?_, ?_⟩, ?_⟩⟩
  · exact fun symbol chart ticker => Yahoo.toTicker_symbol
  · exact fun symbol quote ticker => TwelveData.toTicker_symbol
  · intro symbol result ticker hTicker
    obtain ⟨entry, -, hMapped⟩ := bind_eq_ok.mp hTicker
    exact Kraken.toTicker_symbol hMapped
  · exact (h.mapped rfl rfl hOk).2
  · rintro ⟨raw, hFetch, hMap⟩
    exact ((h.run (fun _ => rfl) rfl rfl).2 hClosed raw hFetch).1.trans hMap
  · intro tickers hOk
    obtain ⟨-, raw, hFetch, hMap⟩ := h.mapped rfl rfl hOk
    exact ⟨raw, hFetch, Binance.tickersOf_codes hMap⟩

namespace Batched

/-! Two symbols of one price. -/

def chart : Yahoo.YahooChartResult where
  «meta» := { regularMarketPrice := some (.finite 64000), regularMarketTime := some 1710003600 }

local instance : JsonLibrary where
  loads _ := some .null
  repr _ := "None"

local instance : PyText := asciiText

local instance : IntText where
  int s := (digitsAscii s.toList).map Nat.cast

local instance : TickerTexts where
  quote _ := "Input should be a finite number"
  entry _ := "Input should be a finite number"
  raw _ := "Input should be a finite number"

local instance : Yahoo.YahooModels where
  chart _ := .ok { result := some [chart] }
  rowText _ := "Input should be a finite number"

local instance : TwelveData.QuoteModels where
  quote _ := .error "close: Field required"

local instance : Kraken.KrakenModels where
  response _ := .error "result: Field required"
  lower := id
  rowText _ := "Input should be a finite number"

def vendor (_ : Request) : Exchange := .response 200 "\x7b\x7d"

theorem ethUsd_formed : codePattern "ETH/USD" = true := by decide

def ethUsd : Symbol where
  code := "ETH/USD"
  formed := ethUsd_formed

def ticker (symbol : Symbol) : Ticker where
  symbol := symbol
  timestamp := 1710003600000000
  bid := 64000
  ask := 64000
  last := 64000
  volume24h := 0
  exchange := "yahoo"

theorem answer_eq (symbol : Symbol) :
    (Yahoo.tickerSource {} vendor).answer symbol = .ok (ticker symbol) := by
  have hFetch : (Yahoo.tickerSource {} vendor).fetch symbol = .ok chart := by
    show Yahoo.chartOf (.response 200 _) = _
    rw [Yahoo.chartOf, getJson_ok (by decide) rfl]
    rfl
  unfold Source.answer
  rw [hFetch]
  rfl

theorem both_answered : ∃ f', (Yahoo.tickerSource {} vendor).Each {} [btcUsd, ethUsd]
    (.ok [ticker btcUsd, ticker ethUsd]) f' := by
  have hTotal : ∃ outs f', (Yahoo.tickerSource {} vendor).Each {} [btcUsd, ethUsd] outs f' :=
    Source.Each.total (fun _ => rfl) rfl rfl {} _
  obtain ⟨outs, f', hEach⟩ := hTotal
  have hAll := ((batches {} { apiKey := "demo" } {} {} vendor (fun _ => .ok []) 0 {} f'
    [btcUsd, ethUsd] outs).1 hEach).1
  rw [(hAll.2 rfl _).mpr (.cons (answer_eq btcUsd) (.cons (answer_eq ethUsd) .nil))] at hEach
  exact ⟨f', hEach⟩

end Batched

end TradingAgent.Marketdata
