import TradingAgent.Coroutine.Refinement
import TradingAgent.Risk.KillSwitch
import TradingAgent.Risk.RedisStore
import TradingAgent.Word.Tally

/-!
# The Redis store refines the risk store

Each call of the risk store is one call of Redis (`stored`). The services are built from
their ports, so that a service over Redis is the translation of the service over the risk
store. If documents are read back as they were written, then what is seen of Redis follows
what the risk store would hold (`simulates_stored`).

So every interleaving over Redis is, step by step, an interleaving over the risk store
(`redis_refines`), and what holds of the one carries over: the kill switch stops trading over
Redis too (`redis_halts`).
-/

namespace TradingAgent.Risk

open Coroutine Coro Trading RedisRiskProfileStore

/-! ## Services over translated ports -/

section Services

variable (T : Translation Exn Ret Ret)

def RiskService.translate (self : RiskService) : RiskService where
  store :=
    { getProfile := self.store.getProfile.translate T
      saveProfile := fun profile => (self.store.saveProfile profile).translate T
      getKillSwitch := self.store.getKillSwitch.translate T
      setKillSwitch := fun state => (self.store.setKillSwitch state).translate T }
  publish event := (self.publish event).translate T

variable (self : RiskService)

theorem translate_ite {α : Type} {p : Prop} [Decidable p] (m n : Async α) :
    (if p then m else n).translate T = if p then m.translate T else n.translate T := by
  split <;> rfl

theorem RiskService.translate_breachNotify (symbol : String) (positionPct dailyLoss : ℚ)
    (profile : RiskProfile) :
    (self.breachNotify symbol positionPct dailyLoss profile).translate T =
      (self.translate T).breachNotify symbol positionPct dailyLoss profile := by
  unfold RiskService.breachNotify
  rw [translate_ite, translate_bind]
  rfl

theorem RiskService.translate_checkProfile (symbol : String) (dailyLoss positionPct : ℚ) :
    (self.checkProfile symbol dailyLoss positionPct).translate T =
      (self.translate T).checkProfile symbol dailyLoss positionPct := by
  unfold RiskService.checkProfile
  rw [translate_bind]
  refine congrArg (_ >>= ·) (funext fun profile => ?_)
  rw [translate_ite, translate_ite, translate_ite, translate_bind, translate_breachNotify]
  refine congrArg (ite _ _) (congrArg (ite _ _) (congrArg (ite _ _) ?_))
  exact congrArg (_ >>= ·) (funext fun breached => translate_ite T _ _)

theorem RiskService.translate_checkOrder (symbol : String)
    (notional equity dailyLoss positionPct : ℚ) :
    (self.checkOrder symbol notional equity dailyLoss positionPct).translate T =
      (self.translate T).checkOrder symbol notional equity dailyLoss positionPct := by
  unfold RiskService.checkOrder
  rw [translate_bind]
  refine congrArg (_ >>= ·) (funext fun state => ?_)
  rw [translate_ite, translate_checkProfile]
  rfl

theorem RiskService.translate_killSwitch (active : Bool) (reason : Option String) :
    (self.killSwitch active reason).translate T = (self.translate T).killSwitch active reason := by
  unfold RiskService.killSwitch
  rw [translate_bind]
  refine congrArg (_ >>= ·) (funext fun _ => ?_)
  rw [translate_ite, translate_bind]
  rfl

theorem RiskService.translate_setProfile (profile : RiskProfile) :
    (self.setProfile profile).translate T = (self.translate T).setProfile profile := by
  unfold RiskService.setProfile
  rw [translate_bind]
  rfl

theorem RiskServiceAdapter.translate_authorize (symbol : String) (notional equity : ℚ) :
    (RiskServiceAdapter.authorize self symbol notional equity).translate T =
      RiskServiceAdapter.authorize (self.translate T) symbol notional equity := by
  unfold RiskServiceAdapter.authorize
  rw [translate_bind, RiskService.translate_checkOrder]
  rfl

variable [PyText]

def orderTranslate (self : PlaceOrderService) : PlaceOrderService where
  getByClientOrderId clientOrderId := (self.getByClientOrderId clientOrderId).translate T
  saveOrder order := (self.saveOrder order).translate T
  submitMarketOrder order := (self.submitMarketOrder order).translate T
  authorize symbol notional equity := (self.authorize symbol notional equity).translate T
  publish event := (self.publish event).translate T
  getPosition symbol := (self.getPosition symbol).translate T
  savePosition position := (self.savePosition position).translate T

variable (orders : PlaceOrderService)

omit [PyText] in
theorem translate_book (submitted : TradeOrder) :
    (orders.book submitted).translate T = (orderTranslate T orders).book submitted := by
  unfold PlaceOrderService.book
  split
  · rw [translate_bind]
    refine congrArg (_ >>= ·) (funext fun found => ?_)
    rw [translate_bind, translate_ofExcept]
    rfl
  · rfl

omit [PyText] in
theorem translate_record (submitted : TradeOrder) :
    (orders.record submitted).translate T = (orderTranslate T orders).record submitted := by
  unfold PlaceOrderService.record
  rw [translate_bind]
  refine congrArg (_ >>= ·) (funext fun _ => ?_)
  rw [translate_bind, translate_book]
  refine congrArg (_ >>= ·) (funext fun _ => ?_)
  rw [translate_bind]
  rfl

theorem translate_place (c : Call) :
    (orders.place c).translate T = (orderTranslate T orders).place c := by
  have hSubmit : (orders.submit c).translate T = (orderTranslate T orders).submit c := by
    unfold PlaceOrderService.submit
    rw [translate_bind, translate_ofExcept]
    rfl
  unfold PlaceOrderService.place
  rw [translate_bind, translate_attempt, hSubmit]
  refine congrArg (_ >>= ·) (funext fun out => ?_)
  cases out with
  | ok submitted => exact translate_record T orders submitted
  | error exc => cases exc <;> rfl

theorem translate_execute (c : Call) :
    (orders.execute c).translate T = (orderTranslate T orders).execute c := by
  unfold PlaceOrderService.execute
  rw [translate_bind]
  refine congrArg (_ >>= ·) (funext fun existing => ?_)
  cases existing with
  | some order => rfl
  | none =>
    dsimp only
    rw [translate_bind]
    refine congrArg (_ >>= ·) (funext fun answer => ?_)
    rw [translate_ite, translate_place]
    rfl

end Services

/-! ## The calls of Redis -/

namespace RedisRiskProfileStore

section Redis

variable (documents : Documents)

/-- Each call of the risk store as a call of Redis, whose answer is read. -/
def stored : Translation Exn Ret Ret where
  operation
    | .getProfile => .redisGet profileKey
    | .saveProfile profile => .redisSet profileKey (documents.writeProfile profile)
    | .getKillSwitch => .redisGet killSwitchKey
    | .setKillSwitch state => .redisSet killSwitchKey (documents.writeKillSwitch state)
    | op => op
  read
    | .getProfile, r => r.map (loaded documents.readProfile {})
    | .saveProfile _, r => r
    | .getKillSwitch, r => r.map (loaded documents.readKillSwitch {})
    | .setKillSwitch _, r => r
    | .getByClientOrderId _, r => r
    | .saveOrder _, r => r
    | .getPosition _, r => r
    | .savePosition _, r => r
    | .authorize _ _ _, r => r
    | .submitMarketOrder _, r => r
    | .createOrder _ _ _ _, r => r
    | .publish _, r => r
    | .redisGet _, r => r
    | .redisSet _ _, r => r

theorem service_eq : RiskService.ports.translate (stored documents) = service documents := by
  have hRead {M : Type} (f : Option String → M) (name : String) :
      (await (.redisGet name) fun r => ofExcept (r.map f) : Async M) =
        perform (.redisGet name) >>= fun raw => return f raw := by
    refine congrArg (await (Op.redisGet name)) (funext fun r => ?_)
    cases r <;> rfl
  unfold RiskService.translate RiskService.ports RiskProfileStore.ports service
    RedisRiskProfileStore
  simp only [translate_call, ← hRead]
  rfl

/-- The calls of the services over the risk store. -/
def plain : Op → Prop
  | .redisGet _ => False
  | .redisSet _ _ => False
  | _ => True

/-- Documents are read back as they were written. -/
structure Faithful : Prop where
  profile : ∀ profile, documents.readProfile (documents.writeProfile profile) = some profile
  killSwitch : ∀ state, documents.readKillSwitch (documents.writeKillSwitch state) = some state

/-- The world with what is seen of Redis in the risk store. -/
def abstracted (w : World) : World :=
  { w with
    profile := seenProfile documents w
    killSwitch := seenKillSwitch documents w
    redis := fun _ => none }

/-- A call of the risk store may raise what its call of Redis may. -/
def pulled (ext : Externals) : Externals where
  authorizes := ext.authorizes
  executes := ext.executes
  responds := ext.responds
  raises op e := ext.raises ((stored documents).operation op) e
  executed := ext.executed

variable {documents}

theorem saveOrder_abstracted (w : World) (order : TradeOrder) :
    (abstracted documents w).saveOrder order =
      (w.saveOrder order).map (abstracted documents) := by
  have hOrders : (abstracted documents w).orders = w.orders := rfl
  unfold World.saveOrder
  rw [hOrders]
  split_ifs <;> rfl

/-- Redis with a further value. -/
def written (w : World) (name value : String) : World :=
  { w with redis := Function.update w.redis name (some value) }

theorem written_self (w : World) (name value : String) :
    (written w name value).redis name = some value :=
  Function.update_self _ _ _

theorem written_ne (w : World) {name other : String} (value : String) (h : other ≠ name) :
    (written w name value).redis other = w.redis other :=
  Function.update_of_ne h _ _

theorem abstracted_profile (hFaithful : Faithful documents) (w : World) (profile : RiskProfile) :
    abstracted documents (written w profileKey (documents.writeProfile profile)) =
      { abstracted documents w with profile := profile } := by
  have hSame : seenProfile documents (written w profileKey (documents.writeProfile profile)) =
      profile := by
    unfold seenProfile loaded
    rw [written_self]
    dsimp only
    rw [hFaithful.profile]
  have hOther : seenKillSwitch documents
      (written w profileKey (documents.writeProfile profile)) = seenKillSwitch documents w := by
    unfold seenKillSwitch
    rw [written_ne w _ (by decide)]
  unfold abstracted
  rw [hSame, hOther]
  rfl

theorem abstracted_killSwitch (hFaithful : Faithful documents) (w : World)
    (state : KillSwitchState) :
    abstracted documents (written w killSwitchKey (documents.writeKillSwitch state)) =
      { abstracted documents w with killSwitch := state } := by
  have hSame : seenKillSwitch documents
      (written w killSwitchKey (documents.writeKillSwitch state)) = state := by
    unfold seenKillSwitch loaded
    rw [written_self]
    dsimp only
    rw [hFaithful.killSwitch]
  have hOther : seenProfile documents
      (written w killSwitchKey (documents.writeKillSwitch state)) = seenProfile documents w := by
    unfold seenProfile
    rw [written_ne w _ (by decide)]
  unfold abstracted
  rw [hSame, hOther]
  rfl

variable [PyText]

/-- What is seen of Redis follows the risk store. -/
theorem simulates_stored (hFaithful : Faithful documents) (ext : Externals) :
    Simulates (stored documents) plain (fun w w' => w = abstracted documents w')
      (World.answer (pulled documents ext)) (World.answer ext) := by
  rintro _ w op r w' hPlain rfl hAnswer
  refine ⟨abstracted documents w', ?_, rfl⟩
  rcases hAnswer with hAnswer | ⟨hSubmits, e, hRaises, rfl, rfl⟩
  · left
    cases op with
    | getProfile =>
      obtain ⟨rfl, rfl⟩ := hAnswer
      exact ⟨rfl, rfl⟩
    | getKillSwitch =>
      obtain ⟨rfl, rfl⟩ := hAnswer
      exact ⟨rfl, rfl⟩
    | saveProfile profile =>
      obtain ⟨rfl, rfl⟩ := hAnswer
      exact ⟨rfl, abstracted_profile hFaithful w profile⟩
    | setKillSwitch state =>
      obtain ⟨rfl, rfl⟩ := hAnswer
      exact ⟨rfl, abstracted_killSwitch hFaithful w state⟩
    | saveOrder order =>
      rcases hAnswer with ⟨rfl, hSaved⟩ | ⟨e, rfl, hRefused, rfl⟩
      · refine .inl ⟨rfl, ?_⟩
        rw [saveOrder_abstracted, hSaved]
        rfl
      · refine .inr ⟨e, rfl, ?_, rfl⟩
        rw [saveOrder_abstracted, hRefused]
        rfl
    | redisGet name => exact absurd hPlain id
    | redisSet name value => exact absurd hPlain id
    | authorize symbol notional equity =>
      obtain ⟨hAuthorizes, rfl⟩ := hAnswer
      exact ⟨hAuthorizes, rfl⟩
    | submitMarketOrder order =>
      obtain ⟨hExecutes, rfl⟩ := hAnswer
      exact ⟨hExecutes, rfl⟩
    | createOrder symbol orderType side amount =>
      obtain ⟨hResponds, rfl⟩ := hAnswer
      exact ⟨hResponds, rfl⟩
    | _ =>
      obtain ⟨rfl, rfl⟩ := hAnswer
      exact ⟨rfl, rfl⟩
  · right
    have hSame : op.submits = ((stored documents).operation op).submits := by
      cases op <;> rfl
    refine ⟨hSame.trans hSubmits, e, hRaises, ?_, rfl⟩
    cases op <;> rfl

/-! ## What the services await -/

omit [PyText] in
theorem awaits_checkOrder (symbol : String) (notional equity dailyLoss positionPct : ℚ) :
    Awaits plain (RiskService.ports.checkOrder symbol notional equity dailyLoss positionPct) := by
  refine Awaits.bind (.call trivial) fun state => ?_
  split_ifs
  · exact trivial
  · refine Awaits.bind (.call trivial) fun profile => ?_
    split_ifs
    · exact trivial
    · exact trivial
    · exact trivial
    · refine Awaits.bind ?_ fun breached => ?_
      · unfold RiskService.breachNotify
        split_ifs
        · exact Awaits.bind (.call trivial) fun _ => trivial
        · exact trivial
      · split_ifs <;> exact trivial

omit [PyText] in
theorem awaits_killSwitch (active : Bool) (reason : Option String) :
    Awaits plain (RiskService.ports.killSwitch active reason) := by
  refine Awaits.bind (.call trivial) fun _ => ?_
  split_ifs
  · exact Awaits.bind (.call trivial) fun _ => trivial
  · exact trivial

omit [PyText] in
theorem awaits_book (submitted : TradeOrder) : Awaits plain (orderService.book submitted) := by
  unfold PlaceOrderService.book
  split
  · exact Awaits.bind (.call trivial) fun stored => Awaits.bind (.ofExcept _) fun updated =>
      .call trivial
  · exact trivial

theorem awaits_execute (c : Call) : Awaits plain (orderService.execute c) := by
  refine Awaits.bind (.call trivial) fun existing => ?_
  cases existing with
  | some order => exact trivial
  | none =>
    refine Awaits.bind (Awaits.bind (awaits_checkOrder _ _ _ _ _) fun _ => trivial) fun answer => ?_
    dsimp only
    split_ifs
    · exact trivial
    · have hSubmit : Awaits plain (orderService.submit c) :=
        Awaits.bind (.ofExcept _) fun order => .call trivial
      refine Awaits.bind hSubmit.attempt fun out => ?_
      cases out with
      | ok submitted =>
        exact Awaits.bind (.call trivial) fun _ => Awaits.bind (awaits_book submitted) fun _ =>
          Awaits.bind (.call trivial) fun _ => trivial
      | error exc => cases exc <;> exact trivial

/-! ## Interleaved calls -/

/-- The order service with the risk service over Redis as its risk gate. -/
def orderService (documents : Documents) : PlaceOrderService :=
  { PlaceOrderService.ports with authorize := RiskServiceAdapter.authorize (service documents) }

omit [PyText] in
theorem orderService_eq : orderTranslate (stored documents) Risk.orderService =
    orderService documents := by
  unfold orderTranslate orderService Risk.orderService PlaceOrderService.ports
  simp only [translate_call, RiskServiceAdapter.translate_authorize, service_eq]
  rfl

variable {ι κ μ : Type}

/-- All calls over Redis before their first step. -/
def started (documents : Documents) (calls : ι → Call) (toggles : κ → Bool × Option String)
    (profiles : μ → RiskProfile) (w : World) : JobConfig ι κ μ where
  state := w
  threads
    | .execute i => (orderService documents).execute (calls i)
    | .killSwitch j => (service documents).killSwitch (toggles j).1 (toggles j).2
    | .setProfile k => (service documents).setProfile (profiles k)

variable {calls : ι → Call} {toggles : κ → Bool × Option String} {profiles : μ → RiskProfile}

theorem renders_start (documents : Documents) (calls : ι → Call)
    (toggles : κ → Bool × Option String) (profiles : μ → RiskProfile) (w : World) :
    Config.Renders (stored documents) plain (fun w w' => w = abstracted documents w')
      (start calls toggles profiles (abstracted documents w))
      (started documents calls toggles profiles w) where
  state := rfl
  awaits job := by
    cases job with
    | execute i => exact awaits_execute (calls i)
    | killSwitch j => exact awaits_killSwitch _ _
    | setProfile k => exact Awaits.bind (.call trivial) fun _ => trivial
  threads job := by
    cases job with
    | execute i =>
      change (orderService documents).execute (calls i) = _
      rw [← orderService_eq, ← translate_execute]
      rfl
    | killSwitch j =>
      change (service documents).killSwitch (toggles j).1 (toggles j).2 = _
      rw [← service_eq, ← RiskService.translate_killSwitch]
      rfl
    | setProfile k =>
      change (service documents).setProfile (profiles k) = _
      rw [← service_eq, ← RiskService.translate_setProfile]
      rfl

variable [DecidableEq ι] [DecidableEq κ] [DecidableEq μ] {ext : Externals} {w : World}
  {c' : JobConfig ι κ μ} {log' : JobLog ι κ μ}

/-- Where two logs agree: the states are those seen of Redis, and the events are rendered. -/
def Agree (documents : Documents) : JobLog ι κ μ → JobLog ι κ μ → Prop :=
  List.Forall₂ fun s s' => s.1.state = abstracted documents s'.1.state ∧
    Event.Renders (stored documents) plain s.2 s'.2

/-- **Redis refines the risk store.** If documents are read back as they were written, every
interleaving of `execute`, `kill_switch` and `set_profile` over Redis is, step by step, one
over a store of a profile and a kill switch, which starts with what is seen of Redis: the
states agree throughout, and the calls return and raise the same. -/
theorem redis_refines (hFaithful : Faithful documents)
    (h : Run (World.answer ext) (started documents calls toggles profiles w) log' c') :
    ∃ log c, Run (World.answer (pulled documents ext))
        (start calls toggles profiles (abstracted documents w)) log c ∧
      c.state = abstracted documents c'.state ∧ Agree documents log log' ∧
      (∀ job a, c'.threads job = ret a ↔ c.threads job = ret a) ∧
      ∀ job e, c'.threads job = raise e ↔ c.threads job = raise e := by
  obtain ⟨log, c, hRun, hConfig, hLog⟩ := Run.translated (simulates_stored hFaithful ext)
    (renders_start documents calls toggles profiles w) h
  refine ⟨log, c, hRun, hConfig.state, hLog.imp fun s s' hBoth => ⟨hBoth.1.state, hBoth.2⟩,
    fun job a => ?_, fun job e => ?_⟩
  · rw [hConfig.threads job]
    exact translate_eq_ret
  · rw [hConfig.threads job]
    exact translate_eq_raise

/-! ## The kill switch over Redis -/

omit [PyText] [DecidableEq ι] [DecidableEq κ] [DecidableEq μ] in
/-- The step writes the document of a switch that is on or off. -/
def Writes (documents : Documents) (active : Bool) (e : Event Exn Ret (Job ι κ μ)) : Prop :=
  ∃ job state, e = ⟨job, .redisSet killSwitchKey (documents.writeKillSwitch state), .ok ()⟩ ∧
    state.active = active

variable {e e' : Event Exn Ret (Job ι κ μ)} {active : Bool}

omit [PyText] [DecidableEq ι] [DecidableEq κ] [DecidableEq μ] in
/-- The documents of a profile and of a switch are kept under different keys. -/
theorem turns_of_writes (hFaithful : Faithful documents)
    (h : Event.Renders (stored documents) plain e e') (hWrites : Writes documents active e') :
    turns active e := by
  obtain ⟨job, state, rfl, rfl⟩ := hWrites
  generalize hEvent : (⟨job, .redisSet killSwitchKey (documents.writeKillSwitch state), .ok ()⟩ :
    Event Exn Ret (Job ι κ μ)) = e' at h
  cases h with
  | mk i op hMay r =>
    cases op with
    | setKillSwitch other =>
      obtain ⟨-, hOp, hAnswer⟩ := Event.mk.inj hEvent
      have hDocument := (Op.redisSet.inj hOp).2
      have hSame := hFaithful.killSwitch other
      rw [← hDocument, hFaithful.killSwitch] at hSame
      obtain rfl := Option.some.inj hSame
      cases hAnswer
      exact decide_eq_true rfl
    | saveProfile profile =>
      have hKeys := (Op.redisSet.inj (Event.mk.inj hEvent).2.1).1
      exact absurd hKeys (by decide)
    | redisSet name value => exact absurd hMay id
    | _ =>
      have hOp := (Event.mk.inj hEvent).2.1
      cases hOp

omit [PyText] [DecidableEq ι] [DecidableEq κ] [DecidableEq μ] in
theorem writes_of_turns (h : Event.Renders (stored documents) plain e e')
    (hTurns : turns active e) : Writes documents active e' := by
  cases h with
  | mk i op hMay r =>
    cases op with
    | setKillSwitch state =>
      cases r with
      | ok u => exact ⟨i, state, rfl, of_decide_eq_true hTurns⟩
      | error e => cases hTurns
    | _ => cases r <;> cases hTurns

omit [PyText] [DecidableEq ι] [DecidableEq κ] [DecidableEq μ] in
theorem trades_of_renders (h : Event.Renders (stored documents) plain e e') :
    trades e'.op = trades e.op ∧ e'.thread = e.thread := by
  cases h with
  | mk i op hMay r => exact ⟨by cases op <;> rfl, rfl⟩

omit [PyText] [DecidableEq ι] [DecidableEq κ] [DecidableEq μ] in
/-- A part of a log agrees with the same part of the other. -/
theorem Agree.append {log before after : JobLog ι κ μ} (h : Agree documents log (before ++ after)) :
    ∃ first rest, log = first ++ rest ∧ Agree documents first before ∧
      Agree documents rest after :=
  ⟨_, _, (List.take_append_drop before.length log).symm, List.forall₂_take_append _ _ _ h,
    List.forall₂_drop_append _ _ _ h⟩

omit [PyText] [DecidableEq ι] [DecidableEq κ] [DecidableEq μ] in
theorem Agree.left {log log' : JobLog ι κ μ} (h : Agree documents log log')
    {s : JobConfig ι κ μ × Event Exn Ret (Job ι κ μ)} (hs : s ∈ log) :
    ∃ s' ∈ log', s.1.state = abstracted documents s'.1.state ∧
      Event.Renders (stored documents) plain s.2 s'.2 := by
  induction h with
  | nil => cases hs
  | @cons t t' rest rest' hFirst _ ih =>
    rcases List.mem_cons.mp hs with rfl | hs
    · exact ⟨t', List.mem_cons_self, hFirst⟩
    · obtain ⟨s', hs', hBoth⟩ := ih hs
      exact ⟨s', List.mem_cons_of_mem _ hs', hBoth⟩

omit [PyText] [DecidableEq ι] [DecidableEq κ] [DecidableEq μ] in
theorem Agree.right {log log' : JobLog ι κ μ} (h : Agree documents log log')
    {s' : JobConfig ι κ μ × Event Exn Ret (Job ι κ μ)} (hs : s' ∈ log') :
    ∃ s ∈ log, s.1.state = abstracted documents s'.1.state ∧
      Event.Renders (stored documents) plain s.2 s'.2 := by
  induction h with
  | nil => cases hs
  | @cons t t' rest rest' hFirst _ ih =>
    rcases List.mem_cons.mp hs with rfl | hs
    · exact ⟨t, List.mem_cons_self, hFirst⟩
    · obtain ⟨s, hs, hBoth⟩ := ih hs
      exact ⟨s, List.mem_cons_of_mem _ hs, hBoth⟩

/-- **The kill switch over Redis.** If documents are read back as they were written: a call of
`execute` whose steps all come after a document of an active switch was written, and before one
of an inactive switch is, does not trade, and an order that it returns was stored under its
id. -/
theorem redis_halts (hFaithful : Faithful documents) {before window : JobLog ι κ μ}
    {on : JobConfig ι κ μ × Event Exn Ret (Job ι κ μ)} {i : ι}
    (h : Run (World.answer ext) (started documents calls toggles profiles w)
      (before ++ on :: window) c')
    (hOn : Writes documents true on.2) (hOff : ∀ s ∈ window, ¬Writes documents false s.2)
    (hInside : ∀ s ∈ before ++ [on], s.2.thread ≠ .execute i) :
    (∀ s ∈ window, s.2.thread = .execute i → trades s.2.op = false) ∧
      ∀ order, c'.threads (.execute i) = ret (.ok order) →
        ∃ s ∈ window, s.2.thread = .execute i ∧
          s.1.state.getByClientOrderId (calls i).command.clientOrderId = some order := by
  have hSplit : before ++ on :: window = (before ++ [on]) ++ window := by simp
  rw [hSplit] at h
  obtain ⟨log, c, hRun, -, hAgree, hReturns, -⟩ := redis_refines hFaithful h
  obtain ⟨first, rest, rfl, hFirst, hRest⟩ := hAgree.append
  obtain ⟨firsts, lasts, rfl, -, hLasts⟩ := hFirst.append
  obtain ⟨turned, _, ⟨-, hTurned⟩, hNil, rfl⟩ := List.forall₂_cons_right_iff.mp hLasts
  obtain rfl := List.forall₂_nil_right_iff.mp hNil
  obtain ⟨d, hUntil, hWindow⟩ := hRun.suffix
  -- The abstract run has the switch on throughout the window.
  have hActive : d.state.killSwitch.active = true :=
    switch_turned (turns_of_writes hFaithful hTurned hOn) (Run.concat_iff.mp hUntil).2
  obtain ⟨-, hActives⟩ := switch_run hWindow hActive fun s hs hTurns => by
    obtain ⟨s', hs', -, hEvent⟩ := hRest.left hs
    exact hOff s' hs' (writes_of_turns hEvent hTurns)
  have hStart : d.threads (.execute i) = Risk.orderService.execute (calls i) := by
    refine hUntil.untouched fun s hs hThread => ?_
    obtain ⟨s', hs', -, hEvent⟩ := hFirst.left hs
    exact hInside s' hs' ((trades_of_renders hEvent).2.trans hThread)
  have hContract : Obeys (fun op => trades op = false)
      (Halted (calls i).command.clientOrderId (Found rest i (calls i).command.clientOrderId)
        (Failed rest i))
      (Refused (Found rest i (calls i).command.clientOrderId) (Failed rest i))
      (d.threads (.execute i)) := by
    rw [hStart]
    exact execute_halted (calls i)
  obtain ⟨hMay, hEnd⟩ := hWindow.obeys hContract (halted_answers hWindow hActives)
  refine ⟨fun s' hs' hThread => ?_, fun order hOrder => ?_⟩
  · obtain ⟨s, hs, -, hEvent⟩ := hRest.right hs'
    obtain ⟨hTrades, hSame⟩ := trades_of_renders hEvent
    rw [hTrades]
    exact hMay s hs (hSame.symm.trans hThread)
  · rw [(hReturns _ _).mp hOrder] at hEnd
    obtain ⟨s, hs, hThread, hFound⟩ := hEnd
    obtain ⟨s', hs', hState, hEvent⟩ := hRest.left hs
    refine ⟨s', hs', (trades_of_renders hEvent).2.trans hThread, ?_⟩
    rw [hState] at hFound
    exact hFound

end Redis

/-! ## A halted order over Redis -/

namespace Drill

local instance : PyText := asciiText

local instance : Encodable RiskProfile :=
  Encodable.ofLeftInverse
    (fun profile => (profile.maxPositionPct, profile.maxDailyLossPct, profile.maxDrawdownPct,
      profile.allowLeverage, profile.failedClosed))
    (fun fields => ⟨fields.1, fields.2.1, fields.2.2.1, fields.2.2.2.1, fields.2.2.2.2⟩)
    fun _ => rfl

/-- A switch is written as its flag, a mark for a reason, and the reason. -/
def documents : Documents where
  readProfile := Tally.read
  writeProfile := Tally.write
  readKillSwitch text :=
    match text.toList with
    | active :: given :: reason =>
      some ⟨active = 't', if given = 't' then some (String.ofList reason) else none⟩
    | _ => none
  writeKillSwitch state :=
    String.ofList ((if state.active then 't' else 'f') ::
      match state.reason with
      | some reason => 't' :: reason.toList
      | none => ['f'])

theorem documents_faithful : Faithful documents where
  profile := Tally.read_write
  killSwitch state := by
    obtain ⟨active, reason⟩ := state
    cases active <;> cases reason <;> simp [documents]

/-- One order and one `kill_switch(True)`. -/
def waiting : JobConfig Unit Unit Unit :=
  started documents (fun _ => Halt.call) (fun _ => (true, some "drill")) (fun _ => {}) {}

/-- The switch is turned on, and then the order is placed. -/
def ended : JobLog Unit Unit Unit × JobConfig Unit Unit Unit :=
  simulate waiting ([.killSwitch (), .execute (), .execute ()].map fun job =>
    (job, World.respond deskReplies))

/-- The step that writes the document. -/
def turned : JobConfig Unit Unit Unit × Event Exn Ret (Job Unit Unit Unit) :=
  (waiting, ⟨.killSwitch (), .redisSet killSwitchKey
    (documents.writeKillSwitch { active := true, reason := some "drill" }), .ok ()⟩)

theorem ended_run : Run (World.answer desk) waiting ([] ++ turned :: ended.1.tail) ended.2 :=
  run_desk waiting [.killSwitch (), .execute (), .execute ()]

theorem drill_refines : ∃ log c, Run (World.answer (pulled documents desk))
    (start (fun _ : Unit => Halt.call) (fun _ : Unit => (true, some "drill"))
      (fun _ : Unit => {}) (abstracted documents {})) log c ∧
      c.threads (.execute ()) = ret (.err "risk_rejected:kill_switch: drill") := by
  obtain ⟨log, c, hRun, -, -, hReturns, -⟩ := redis_refines documents_faithful ended_run
  refine ⟨log, c, hRun, (hReturns _ _).mp ?_⟩
  rfl

def writesRedis : Op → Bool
  | .redisSet _ _ => true
  | _ => false

theorem drill_halts :
    (∀ s ∈ ended.1.tail, s.2.thread = .execute () → trades s.2.op = false) ∧
      ended.1.tail.length = 2 := by
  refine ⟨(redis_halts (i := ()) documents_faithful ended_run ⟨_, _, rfl, rfl⟩ ?_ ?_).1, rfl⟩
  · have hReads : ∀ s ∈ ended.1.tail, writesRedis s.2.op = false := by decide +kernel
    rintro s hs ⟨job, state, hEvent, -⟩
    have hRead := hReads s hs
    rw [hEvent] at hRead
    cases hRead
  · decide +kernel

end Drill

end RedisRiskProfileStore

end TradingAgent.Risk
