import TradingAgent.Table.Columns
import TradingAgent.Table.Unique
import TradingAgent.Trading.Order

/-!
# The tables of orders and positions

The repositories write an order or a position as a row, whose columns may refuse or change
what they are given, and read it back from the row. An order that is saved is read back as it
is exactly if each of its values fits its column and its client order id is not stored for
another order (`order_preserved_iff`); likewise a position (`position_preserved_iff`). Neither
the request schema nor the accounting keeps the numbers within the scale of the columns
(`Dust`).
-/

namespace TradingAgent.Trading

open Table

/-- What a column of the type `DateTime` gives back of an aware time, and `none` where the
driver refuses it. -/
class Driver where
  timestamp : Datetime → Option Datetime

/-- `Numeric(38, 18)`. -/
def number (q : ℚ) : Option ℚ := numeric 38 18 q

theorem number_eq_self {q : ℚ} : number q = some q ↔ Fits 38 18 q := numeric_eq_self

/-- A nullable column. -/
def nullable {A : Type} (column : A → Option A) : Option A → Option (Option A)
  | none => some none
  | some a => (column a).map some

def databaseError : Exn := .other "DBAPIError"

def integrityError : Exn := .other "IntegrityError"

/-- The value, or the exception that its absence raises. -/
def required {A : Type} (e : Exn) : Option A → Except Exn A
  | some a => .ok a
  | none => .error e

theorem required_eq_ok {A : Type} {e : Exn} {x : Option A} {a : A} :
    required e x = .ok a ↔ x = some a := by
  cases x with
  | none => simp [required]
  | some b => simp [required]

/-! ## The values of the enumerations -/

def OrderSide.ofValue : String → Except Exn OrderSide :=
  memberOf "OrderSide" OrderSide.value [.buy, .sell]

def OrderType.value : OrderType → String
  | .market => "market"

def OrderType.ofValue : String → Except Exn OrderType :=
  memberOf "OrderType" OrderType.value [.market]

def OrderStatus.value : OrderStatus → String
  | .pending => "pending"
  | .filled => "filled"
  | .rejected => "rejected"

def OrderStatus.ofValue : String → Except Exn OrderStatus :=
  memberOf "OrderStatus" OrderStatus.value [.pending, .filled, .rejected]

theorem OrderSide.ofValue_eq_ok {text : String} {side : OrderSide} :
    ofValue text = .ok side ↔ text = side.value :=
  memberOf_eq_ok (fun a => by cases a <;> simp) fun a b h => by
    cases a <;> cases b <;> first | rfl | exact absurd h (by decide)

theorem OrderType.ofValue_eq_ok {text : String} {orderType : OrderType} :
    ofValue text = .ok orderType ↔ text = orderType.value :=
  memberOf_eq_ok (fun a => by cases a; simp) fun _ _ _ => rfl

theorem OrderStatus.ofValue_eq_ok {text : String} {status : OrderStatus} :
    ofValue text = .ok status ↔ text = status.value :=
  memberOf_eq_ok (fun a => by cases a <;> simp) fun a b h => by
    cases a <;> cases b <;> first | rfl | exact absurd h (by decide)

/-! ## Rows of orders -/

structure TradeOrderRow where
  id : UUID
  symbol : String
  side : String
  quantity : ℚ
  orderType : String
  status : String
  requestedPrice : ℚ
  executedPrice : Option ℚ
  clientOrderId : String
  createdAt : Datetime
  rejectionReason : Option String
  deriving DecidableEq, Repr

namespace TradeOrderRow

/-- What the columns keep of a row. -/
def kept [Driver] (row : TradeOrderRow) : Option TradeOrderRow := do
  let symbol ← varchar 32 row.symbol
  let side ← varchar 8 row.side
  let quantity ← number row.quantity
  let orderType ← varchar 16 row.orderType
  let status ← varchar 16 row.status
  let requestedPrice ← number row.requestedPrice
  let executedPrice ← nullable number row.executedPrice
  let clientOrderId ← varchar 128 row.clientOrderId
  let createdAt ← Driver.timestamp row.createdAt
  let rejectionReason ← nullable (varchar 512) row.rejectionReason
  return ⟨row.id, symbol, side, quantity, orderType, status, requestedPrice, executedPrice,
    clientOrderId, createdAt, rejectionReason⟩

theorem kept_eq_some [Driver] {row stored : TradeOrderRow} :
    row.kept = some stored ↔
      row.id = stored.id ∧ varchar 32 row.symbol = some stored.symbol ∧
      varchar 8 row.side = some stored.side ∧ number row.quantity = some stored.quantity ∧
      varchar 16 row.orderType = some stored.orderType ∧
      varchar 16 row.status = some stored.status ∧
      number row.requestedPrice = some stored.requestedPrice ∧
      nullable number row.executedPrice = some stored.executedPrice ∧
      varchar 128 row.clientOrderId = some stored.clientOrderId ∧
      Driver.timestamp row.createdAt = some stored.createdAt ∧
      nullable (varchar 512) row.rejectionReason = some stored.rejectionReason := by
  obtain ⟨id, symbol, side, quantity, orderType, status, requested, executed, client, created,
    reason⟩ := stored
  simp only [kept, Option.bind_eq_bind, Option.bind_eq_some_iff, Option.pure_def,
    Option.some.injEq, mk.injEq]
  constructor
  · rintro ⟨a, ha, b, hb, c, hc, d, hd, e, he, f, hf, g, hg, h, hh, i, hi, j, hj, rfl, rfl, rfl,
      rfl, rfl, rfl, rfl, rfl, rfl, rfl, rfl⟩
    exact ⟨rfl, ha, hb, hc, hd, he, hf, hg, hh, hi, hj⟩
  · rintro ⟨rfl, ha, hb, hc, hd, he, hf, hg, hh, hi, hj⟩
    exact ⟨_, ha, _, hb, _, hc, _, hd, _, he, _, hf, _, hg, _, hh, _, hi, _, hj, rfl, rfl, rfl,
      rfl, rfl, rfl, rfl, rfl, rfl, rfl, rfl⟩

end TradeOrderRow

theorem nullable_eq_self {A : Type} {column : A → Option A} {value : Option A} :
    nullable column value = some value ↔ ∀ a, value = some a → column a = some a := by
  cases value with
  | none => simp [nullable]
  | some a => simp [nullable]

namespace PostgresOrderRepository

abbrev Orders := Unique TradeOrderRow.id TradeOrderRow.clientOrderId

def toRow (order : TradeOrder) : TradeOrderRow where
  id := order.id
  symbol := order.symbol
  side := order.side.value
  quantity := order.quantity
  orderType := order.orderType.value
  status := order.status.value
  requestedPrice := order.requestedPrice
  executedPrice := order.executedPrice
  clientOrderId := order.clientOrderId
  createdAt := order.createdAt
  rejectionReason := order.rejectionReason

def toDomain (row : TradeOrderRow) : Except Exn TradeOrder := do
  let side ← OrderSide.ofValue row.side
  let orderType ← OrderType.ofValue row.orderType
  let status ← OrderStatus.ofValue row.status
  return ⟨row.id, row.symbol, side, row.quantity, orderType, status, row.requestedPrice,
    row.executedPrice, row.clientOrderId, row.createdAt, row.rejectionReason⟩

def getByClientOrderId (t : Orders) (clientOrderId : String) : Except Exn (Option TradeOrder) :=
  if nul ∈ clientOrderId.toList then .error databaseError
  else
    match t.findColumn clientOrderId with
    | some row => some <$> toDomain row
    | none => .ok none

variable [Driver]

def save (t : Orders) (order : TradeOrder) : Except Exn Orders := do
  let row ← required databaseError (toRow order).kept
  required integrityError (t.put row)

/-- Every value of the order fits its column. -/
structure Storable (order : TradeOrder) : Prop where
  symbol : Text 32 order.symbol
  quantity : Fits 38 18 order.quantity
  requestedPrice : Fits 38 18 order.requestedPrice
  executedPrice : ∀ price, order.executedPrice = some price → Fits 38 18 price
  clientOrderId : Text 128 order.clientOrderId
  createdAt : Driver.timestamp order.createdAt = some order.createdAt
  rejectionReason : ∀ reason, order.rejectionReason = some reason → Text 512 reason

/-- The client order id is not stored for another order. -/
def Free (t : Orders) (order : TradeOrder) : Prop :=
  ∀ row ∈ t.rows, row.clientOrderId = order.clientOrderId → row.id = order.id

/-- The order is saved, and read back by its client order id as it is. -/
def Preserved (t : Orders) (order : TradeOrder) : Prop :=
  ∃ t', save t order = .ok t' ∧
    getByClientOrderId t' order.clientOrderId = .ok (some order)

variable {t t' : Orders} {order : TradeOrder} {row : TradeOrderRow}

omit [Driver] in
theorem toDomain_eq_ok : toDomain row = .ok order ↔ row = toRow order := by
  constructor
  · intro h
    obtain ⟨side, hSide, h⟩ := bind_eq_ok.mp h
    obtain ⟨orderType, hType, h⟩ := bind_eq_ok.mp h
    obtain ⟨status, hStatus, h⟩ := bind_eq_ok.mp h
    obtain rfl := Except.ok.inj h
    simp only [toRow, ← OrderSide.ofValue_eq_ok.mp hSide, ← OrderType.ofValue_eq_ok.mp hType,
      ← OrderStatus.ofValue_eq_ok.mp hStatus]
  · rintro rfl
    refine bind_eq_ok.mpr ⟨order.side, OrderSide.ofValue_eq_ok.mpr rfl, ?_⟩
    refine bind_eq_ok.mpr ⟨order.orderType, OrderType.ofValue_eq_ok.mpr rfl, ?_⟩
    exact bind_eq_ok.mpr ⟨order.status, OrderStatus.ofValue_eq_ok.mpr rfl, rfl⟩

/-- The texts of the enumerations fit their columns. -/
theorem kept_toRow : (toRow order).kept = some (toRow order) ↔ Storable order := by
  have hSide : varchar 8 order.side.value = some order.side.value := by
    cases order.side <;> decide
  have hType : varchar 16 order.orderType.value = some order.orderType.value := by
    cases order.orderType
    decide
  have hStatus : varchar 16 order.status.value = some order.status.value := by
    cases order.status <;> decide
  rw [TradeOrderRow.kept_eq_some]
  constructor
  · rintro ⟨-, hSymbol, -, hQuantity, -, -, hRequested, hExecuted, hClient, hCreated, hReason⟩
    exact
      { symbol := varchar_eq_self.mp hSymbol
        quantity := number_eq_self.mp hQuantity
        requestedPrice := number_eq_self.mp hRequested
        executedPrice := fun price hPrice =>
          number_eq_self.mp (nullable_eq_self.mp hExecuted price hPrice)
        clientOrderId := varchar_eq_self.mp hClient
        createdAt := hCreated
        rejectionReason := fun reason hSome =>
          varchar_eq_self.mp (nullable_eq_self.mp hReason reason hSome) }
  · intro h
    refine ⟨rfl, varchar_eq_self.mpr h.symbol, hSide, number_eq_self.mpr h.quantity, hType,
      hStatus, number_eq_self.mpr h.requestedPrice, ?_, varchar_eq_self.mpr h.clientOrderId,
      h.createdAt, ?_⟩
    · exact nullable_eq_self.mpr fun price hPrice =>
        number_eq_self.mpr (h.executedPrice price hPrice)
    · exact nullable_eq_self.mpr fun reason hSome =>
        varchar_eq_self.mpr (h.rejectionReason reason hSome)

theorem save_eq_ok :
    save t order = .ok t' ↔ ∃ row, (toRow order).kept = some row ∧ t.put row = some t' := by
  simp only [save, bind_eq_ok, required_eq_ok]

/-- **Orders.** -/
theorem order_preserved_iff : Preserved t order ↔ Storable order ∧ Free t order := by
  constructor
  · rintro ⟨t', hSave, hGet⟩
    obtain ⟨row, hKept, hPut⟩ := save_eq_ok.mp hSave
    unfold getByClientOrderId at hGet
    split at hGet
    · cases hGet
    · cases hFound : t'.findColumn order.clientOrderId with
      | none => simp [hFound] at hGet
      | some found =>
        obtain ⟨hMem, -⟩ := Unique.findColumn_eq_some.mp hFound
        have hFoundRow : found = toRow order := by
          simp only [hFound] at hGet
          cases hDomain : toDomain found with
          | error e => simp [hDomain] at hGet
          | ok read =>
            rw [hDomain] at hGet
            obtain rfl : read = order := by simpa using hGet
            exact toDomain_eq_ok.mp hDomain
        -- The row that is found has the id of the order, so it is the row that was saved.
        have hId : row.id = order.id := (TradeOrderRow.kept_eq_some.mp hKept).1.symm
        have hSame : row = found :=
          List.inj_on_of_nodup_map t'.keys (Unique.mem_of_put hPut) hMem
            (by rw [hId, hFoundRow]; rfl)
        rw [hSame, hFoundRow] at hKept hPut
        exact ⟨kept_toRow.mp hKept, Unique.put_isSome.mp ⟨t', hPut⟩⟩
  · rintro ⟨hStorable, hFree⟩
    obtain ⟨t', hPut⟩ : ∃ t', t.put (toRow order) = some t' := Unique.put_isSome.mpr hFree
    have hFound : t'.findColumn order.clientOrderId = some (toRow order) :=
      Unique.findColumn_eq_some.mpr ⟨Unique.mem_of_put hPut, rfl⟩
    refine ⟨t', save_eq_ok.mpr ⟨_, kept_toRow.mpr hStorable, hPut⟩, ?_⟩
    rw [getByClientOrderId, if_neg hStorable.clientOrderId.1, hFound]
    simp [toDomain_eq_ok.mpr rfl]

end PostgresOrderRepository

/-! ## Rows of positions -/

/-- A stored row, whose symbol is a value of its column. -/
structure PositionRow where
  symbol : String
  quantity : ℚ
  averageEntryPrice : ℚ
  realizedPnl : ℚ
  formed : Text 32 symbol

namespace PostgresPositionRepository

abbrev Positions := Unique PositionRow.symbol PositionRow.symbol

/-- The row of a stored symbol with the numbers of a position. -/
def written {symbol : String} (formed : Text 32 symbol) (position : Position) :
    Except Exn PositionRow := do
  let quantity ← required databaseError (number position.quantity)
  let averageEntryPrice ← required databaseError (number position.averageEntryPrice)
  let realizedPnl ← required databaseError (number position.realizedPnl)
  return ⟨symbol, quantity, averageEntryPrice, realizedPnl, formed⟩

def toDomain (row : PositionRow) : Position where
  symbol := row.symbol
  quantity := row.quantity
  averageEntryPrice := row.averageEntryPrice
  realizedPnl := row.realizedPnl

/-- `session.get(PositionRow, symbol)`. -/
def load (t : Positions) (symbol : String) : Except Exn (Option PositionRow) :=
  if nul ∈ symbol.toList then .error databaseError else .ok (t.findKey symbol)

variable [PyText]

def get (t : Positions) (symbol : String) : Except Exn (Option Position) := do
  let row ← load t (PyText.upper symbol)
  return row.map toDomain

def save (t : Positions) (position : Position) : Except Exn Positions := do
  let symbol := PyText.upper position.symbol
  match ← load t symbol with
  | some row =>
    let row ← written row.formed position
    required integrityError (t.replace row)
  | none =>
    match hSymbol : varchar 32 symbol with
    | none => .error databaseError
    | some _ =>
      let row ← written (text_of_varchar hSymbol) position
      required integrityError (t.insert row)

/-- Every value of the position fits its column, and its symbol is in upper case. -/
structure Storable (position : Position) : Prop where
  upper : PyText.upper position.symbol = position.symbol
  symbol : Text 32 position.symbol
  quantity : Fits 38 18 position.quantity
  averageEntryPrice : Fits 38 18 position.averageEntryPrice
  realizedPnl : Fits 38 18 position.realizedPnl

/-- The position is saved, and read back by its symbol as it is. -/
def Preserved (t : Positions) (position : Position) : Prop :=
  ∃ t', save t position = .ok t' ∧ get t' position.symbol = .ok (some position)

variable {t t' : Positions} {position : Position}

omit [PyText] in
theorem written_eq_ok {symbol : String} {formed : Text 32 symbol} {row : PositionRow} :
    written formed position = .ok row ↔
      row.symbol = symbol ∧ number position.quantity = some row.quantity ∧
        number position.averageEntryPrice = some row.averageEntryPrice ∧
        number position.realizedPnl = some row.realizedPnl := by
  obtain ⟨stored, quantity, average, realized, hStored⟩ := row
  simp only [written, bind_eq_ok, required_eq_ok]
  constructor
  · rintro ⟨a, ha, b, hb, c, hc, hRow⟩
    cases hRow
    exact ⟨rfl, ha, hb, hc⟩
  · rintro ⟨rfl, ha, hb, hc⟩
    exact ⟨_, ha, _, hb, _, hc, rfl⟩

omit [PyText] in
theorem load_eq_ok {symbol : String} {found : Option PositionRow} :
    load t symbol = .ok found ↔ nul ∉ symbol.toList ∧ t.findKey symbol = found := by
  unfold load
  split
  · next hNul => simp [hNul]
  · next hNul => simp [hNul]

/-- What a save did: the table has a row with the numbers of the position, and the symbol of
the row is that of the position unless the column has changed it. -/
theorem save_cases (h : save t position = .ok t') :
    ∃ row ∈ t'.rows, number position.quantity = some row.quantity ∧
      number position.averageEntryPrice = some row.averageEntryPrice ∧
      number position.realizedPnl = some row.realizedPnl ∧
      (Text 32 (PyText.upper position.symbol) → row.symbol = PyText.upper position.symbol) := by
  obtain ⟨found, hLoad, h⟩ := bind_eq_ok.mp h
  obtain ⟨-, hFound⟩ := load_eq_ok.mp hLoad
  cases found with
  | some stored =>
    obtain ⟨row, hWritten, h⟩ := bind_eq_ok.mp h
    obtain ⟨hSymbol, hNumbers⟩ := written_eq_ok.mp hWritten
    have hStored : stored.symbol = PyText.upper position.symbol :=
      (Unique.findKey_eq_some.mp hFound).2
    have hKey : t.findKey row.symbol = some stored := by rw [hSymbol, hStored, hFound]
    exact ⟨row, Unique.mem_of_replace hKey (required_eq_ok.mp h), hNumbers.1, hNumbers.2.1,
      hNumbers.2.2, fun _ => hSymbol.trans hStored⟩
  | none =>
    dsimp only at h
    split at h
    · cases h
    · next stored hVarchar =>
      obtain ⟨row, hWritten, h⟩ := bind_eq_ok.mp h
      obtain ⟨hSymbol, hNumbers⟩ := written_eq_ok.mp hWritten
      refine ⟨row, Unique.mem_of_insert (required_eq_ok.mp h), hNumbers.1, hNumbers.2.1,
        hNumbers.2.2, fun hText => ?_⟩
      rw [varchar_eq_self.mpr hText] at hVarchar
      exact hSymbol.trans (Option.some.inj hVarchar).symm

/-- A position whose values fit their columns is saved. -/
theorem save_ok (h : Storable position) : ∃ t', save t position = .ok t' := by
  have hLoad : load t (PyText.upper position.symbol) =
      .ok (t.findKey (PyText.upper position.symbol)) := by
    rw [h.upper]
    exact load_eq_ok.mpr ⟨h.symbol.1, rfl⟩
  have hWritten {symbol : String} (formed : Text 32 symbol) : written formed position =
      .ok ⟨symbol, position.quantity, position.averageEntryPrice, position.realizedPnl, formed⟩ :=
    written_eq_ok.mpr ⟨rfl, number_eq_self.mpr h.quantity,
      number_eq_self.mpr h.averageEntryPrice, number_eq_self.mpr h.realizedPnl⟩
  have hText : Text 32 (PyText.upper position.symbol) := by
    rw [h.upper]
    exact h.symbol
  cases hFound : t.findKey (PyText.upper position.symbol) with
  | some stored =>
    rw [hFound] at hLoad
    cases hReplaced : t.replace ⟨stored.symbol, position.quantity, position.averageEntryPrice,
        position.realizedPnl, stored.formed⟩ with
    | some t' =>
      exact ⟨t', bind_eq_ok.mpr ⟨_, hLoad, bind_eq_ok.mpr ⟨_, hWritten stored.formed,
        required_eq_ok.mpr hReplaced⟩⟩⟩
    | none => exact absurd (fun _ _ hSame => hSame) (Unique.replace_eq_none.mp hReplaced)
  | none =>
    rw [hFound] at hLoad
    cases hInserted : t.insert ⟨PyText.upper position.symbol, position.quantity,
        position.averageEntryPrice, position.realizedPnl, hText⟩ with
    | some t' =>
      refine ⟨t', bind_eq_ok.mpr ⟨_, hLoad, ?_⟩⟩
      dsimp only
      split
      · next hNone => simp [varchar_eq_self.mpr hText] at hNone
      · next stored hVarchar =>
        obtain rfl : PyText.upper position.symbol = stored :=
          Option.some.inj ((varchar_eq_self.mpr hText).symm.trans hVarchar)
        exact bind_eq_ok.mpr ⟨_, hWritten hText, required_eq_ok.mpr hInserted⟩
    | none =>
      -- The symbol is not in the table, since it was not found there.
      obtain ⟨other, hOther, hSame⟩ := List.mem_map.mp
        ((Unique.insert_eq_none.mp hInserted).elim id id)
      simp [Unique.findKey_eq_some.mpr ⟨hOther, hSame⟩] at hFound

/-- **Positions.** -/
theorem position_preserved_iff : Preserved t position ↔ Storable position := by
  constructor
  · rintro ⟨t', hSave, hGet⟩
    obtain ⟨row, hRow, hQuantity, hAverage, hRealized, hSymbol⟩ := save_cases hSave
    obtain ⟨found, hLoad, hRead⟩ := bind_eq_ok.mp hGet
    obtain ⟨-, hFound⟩ := load_eq_ok.mp hLoad
    obtain ⟨read, rfl, rfl⟩ := Option.map_eq_some_iff.mp (Except.ok.inj hRead)
    obtain ⟨hMem, hKey⟩ := Unique.findKey_eq_some.mp hFound
    have hUpper : PyText.upper read.symbol = read.symbol := hKey.symm
    -- The column takes the symbol of the row that is read, so the row that was saved has it.
    have hSame : row = read :=
      List.inj_on_of_nodup_map t'.keys hRow hMem ((hSymbol (hUpper ▸ read.formed)).trans hUpper)
    subst hSame
    exact ⟨hUpper, row.formed, number_eq_self.mp hQuantity, number_eq_self.mp hAverage,
      number_eq_self.mp hRealized⟩
  · intro h
    obtain ⟨t', hSave⟩ := save_ok (t := t) h
    obtain ⟨row, hRow, hQuantity, hAverage, hRealized, hSymbol⟩ := save_cases hSave
    have hKey : row.symbol = position.symbol := by
      rw [h.upper] at hSymbol
      exact hSymbol h.symbol
    have hLoad : load t' (PyText.upper position.symbol) = .ok (some row) := by
      rw [h.upper]
      exact load_eq_ok.mpr ⟨h.symbol.1, Unique.findKey_eq_some.mpr ⟨hRow, hKey⟩⟩
    refine ⟨t', hSave, bind_eq_ok.mpr ⟨_, hLoad, ?_⟩⟩
    rw [number_eq_self.mpr h.quantity] at hQuantity
    rw [number_eq_self.mpr h.averageEntryPrice] at hAverage
    rw [number_eq_self.mpr h.realizedPnl] at hRealized
    simp only [Option.map_some, toDomain, hKey, ← Option.some.inj hQuantity,
      ← Option.some.inj hAverage, ← Option.some.inj hRealized]
    rfl

end PostgresPositionRepository

/-! ## Orders and positions of the program -/

/-- A request, with the checks of its schema. -/
structure PlaceOrderRequest where
  symbol : String
  side : OrderSide
  quantity : ℚ
  price : ℚ
  clientOrderId : String
  equity : ℚ
  symbol_length : 1 ≤ symbol.toList.length ∧ symbol.toList.length ≤ 30
  quantity_pos : 0 < quantity
  price_pos : 0 < price
  clientOrderId_length : 1 ≤ clientOrderId.toList.length ∧ clientOrderId.toList.length ≤ 100
  equity_pos : 0 < equity

/-- The order is created for the request, and a gateway filled it. -/
def PlaceOrderRequest.Filled [PyText] (request : PlaceOrderRequest) (order : TradeOrder) : Prop :=
  ∃ id now pending, TradeOrder.create id request.symbol request.side request.quantity request.price
      request.clientOrderId now = .ok pending ∧
    pending.Executed (.ok order) ∧ order.status = .filled

/-- The position is what some fills make of the empty one. -/
def Position.Reached (position : Position) : Prop :=
  ∃ symbol fills, (empty symbol).applyFills fills = .ok position

/-- **What the tables keep.** An order that is saved is read back as it is exactly if its values
fit their columns and its client order id is free, and a position exactly if its values fit. -/
theorem preserved_iff [Driver] [PyText] :
    (∀ (t : PostgresOrderRepository.Orders) (order : TradeOrder),
      PostgresOrderRepository.Preserved t order ↔
        PostgresOrderRepository.Storable order ∧ PostgresOrderRepository.Free t order) ∧
    ∀ (t : PostgresPositionRepository.Positions) (position : Position),
      PostgresPositionRepository.Preserved t position ↔
        PostgresPositionRepository.Storable position :=
  ⟨fun _ _ => PostgresOrderRepository.order_preserved_iff,
    fun _ _ => PostgresPositionRepository.position_preserved_iff⟩

namespace Dust

local instance : PyText := asciiText

/-- A driver that gives every time back as it is. -/
local instance : Driver := ⟨some⟩

def request : PlaceOrderRequest where
  symbol := "BTC/USDT"
  side := .buy
  quantity := 1 / 10 ^ 19
  price := 1
  clientOrderId := "dust"
  equity := 1000
  symbol_length := by decide
  quantity_pos := by norm_num
  price_pos := by norm_num
  clientOrderId_length := by decide
  equity_pos := by norm_num

def order : TradeOrder where
  id := ⟨"1"⟩
  symbol := "BTC/USDT"
  side := .buy
  quantity := 1 / 10 ^ 19
  orderType := .market
  status := .filled
  requestedPrice := 1
  executedPrice := some 1
  clientOrderId := "dust"
  createdAt := 0

def fills : List Fill :=
  [⟨.buy, 1, 1, by norm_num, by norm_num⟩, ⟨.buy, 524287, 2, by norm_num, by norm_num⟩]

/-- The average of the fills has nineteen places. -/
def position : Position where
  symbol := "BTC/USDT"
  quantity := 524288
  averageEntryPrice := 1048575 / 524288
  realizedPnl := 0

theorem not_fits {q : ℚ} {m : ℤ} (hOdd : q * 10 ^ 19 = m) (hTen : ¬10 ∣ m) : ¬Fits 38 18 q := by
  rintro ⟨n, rfl, -⟩
  refine hTen ⟨n, ?_⟩
  have hCast : ((10 * n : ℤ) : ℚ) = m := by
    rw [← hOdd]
    push_cast
    ring
  exact (Int.cast_injective hCast).symm

theorem not_preserved :
    (¬∀ (request : PlaceOrderRequest) (order : TradeOrder), request.Filled order →
      PostgresOrderRepository.Preserved Unique.empty order) ∧
    ¬∀ position : Position, position.Reached →
      PostgresPositionRepository.Preserved Unique.empty position := by
  constructor
  · intro h
    have hPending : TradeOrder.create ⟨"1"⟩ request.symbol request.side request.quantity
        request.price request.clientOrderId 0 =
        .ok { order with status := .pending, executedPrice := none } := by
      decide +kernel
    have hFilled : request.Filled order := by
      refine ⟨_, _, _, hPending, ?_, rfl⟩
      have hFill : Except.ok order =
          { order with status := .pending, executedPrice := none }.fill 1 := by
        decide +kernel
      rw [hFill]
      exact .filled 1
    obtain ⟨hStorable, -⟩ :=
      PostgresOrderRepository.order_preserved_iff.mp (h request order hFilled)
    exact not_fits (m := 1) (by norm_num [order]) (by norm_num) hStorable.quantity
  · intro h
    have hReached : position.Reached := ⟨"BTC/USDT", fills, by decide +kernel⟩
    have hStorable := PostgresPositionRepository.position_preserved_iff.mp (h position hReached)
    refine not_fits (m := 19999980926513671875) ?_ (by norm_num) hStorable.averageEntryPrice
    norm_num [position]

end Dust

end TradingAgent.Trading
