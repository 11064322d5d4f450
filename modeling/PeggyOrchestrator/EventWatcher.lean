import PeggyOrchestrator.Io
import PeggyOrchestrator.PeggyUtils
set_option autoImplicit false

/-!
`orchestrator/src/ethereum_event_watcher.rs`: one cycle of the Ethereum event watcher,
`check_for_events`, and the block delay it keeps behind the chain head.
-/

namespace Peggy

/-- The deposits, withdraws, ERC20 deploys and logic calls one `send_ethereum_claims` carries. -/
structure Claims where
  deposits : List Event
  withdraws : List Event
  erc20Deploys : List Event
  logicCalls : List Event
  deriving DecidableEq, Repr

def Claims.empty : Claims := ⟨[], [], [], []⟩

/-- The adapter calls of `check_for_events`, each with its arguments and its answer. -/
inductive WatcherCall where
  | getBlockNumberWithRetry (latestBlock : Uint256)
  | getNetVersionWithRetry (netVersion : Nat)
  | checkForEvents (startingBlock latestBlock : Uint256) (contracts : List EthAddress)
      (events : List String) (logs : Except Web3Error (List Log))
  | getLastEventNonce (validator : CosmosAddress) (nonce : Except PeggyError Nat)
  | sendEthereumClaims (claims : Claims) (fee : Coin) (res : Except PeggyError TxResponse)

structure WatcherAnswers where
  latestBlock : Uint256
  netVersion : Nat
  logs : EventKind → Except Web3Error (List Log)
  lastEventNonce : Except PeggyError Nat
  claimsResponse : Except PeggyError TxResponse
  newEventNonce : Except PeggyError Nat

/-- The match of `get_block_delay`: six blocks on proof-of-work and unknown networks, none
on networks with finality. -/
def blockDelay (netVersion : Nat) : Uint256 :=
  match netVersion with
  | 1 | 3 | 7 => .ofU8 6
  | 4 | 5 | 2018 | 15 | 6 => .ofU8 0
  | _ => .ofU8 6

/-- `get_block_delay` keeps six blocks behind the head on every network but the five with
finality it lists. -/
theorem blockDelay_val (netVersion : Nat) :
    (blockDelay netVersion).val = if netVersion ∈ [4, 5, 6, 15, 2018] then 0 else 6 := by
  unfold blockDelay
  split
  all_goals first
    | decide
    | rw [if_neg]
      · rfl
      · simp only [List.mem_cons, List.not_mem_nil, or_false]
        rintro (h | h | h | h | h) <;> contradiction

def getBlockDelay (netVersion : Nat) : Io WatcherCall Uint256 := do
  let netVersion ← Io.call .getNetVersionWithRetry netVersion
  return blockDelay netVersion

structure DecodedEvents where
  valsets : List Event
  withdraws : List Event
  deposits : List Event
  erc20Deploys : List Event
  logicCalls : List Event

def DecodedEvents.get (dec : DecodedEvents) : EventKind → List Event
  | .sendToCosmos => dec.deposits
  | .transactionBatchExecuted => dec.withdraws
  | .valsetUpdated => dec.valsets
  | .erc20Deployed => dec.erc20Deploys
  | .logicCallExecuted => dec.logicCalls

/-- The events of the four claimable kinds whose nonce is above `n`, each kind in the order
it was decoded: what the watcher owes a native chain that has applied every event up to `n`. -/
def claimsAbove (n : Nat) (evs : EventKind → List Event) : Claims :=
  ⟨(evs .sendToCosmos).filter (n < ·.eventNonce),
    (evs .transactionBatchExecuted).filter (n < ·.eventNonce),
    (evs .erc20Deployed).filter (n < ·.eventNonce), (evs .logicCallExecuted).filter (n < ·.eventNonce)⟩

/-- Lines 95-104: the five `from_logs`, in the source's order, stopping at the first error. -/
def decodeLogs (fromLogs : EventKind → List Log → Except PeggyError (List Event))
    (valsets batches deposits deploys logicCalls : List Log) :
    Except PeggyError DecodedEvents := do
  let valsets ← fromLogs .valsetUpdated valsets
  let withdraws ← fromLogs .transactionBatchExecuted batches
  let deposits ← fromLogs .sendToCosmos deposits
  let erc20Deploys ← fromLogs .erc20Deployed deploys
  let logicCalls ← fromLogs .logicCallExecuted logicCalls
  return ⟨valsets, withdraws, deposits, erc20Deploys, logicCalls⟩

def claimsDidNotProcess (lastEventNonce : Nat) (txhash : String) : PeggyError :=
  .invalidBridgeStateError
    s!"Claims did not process, trying to update but still on {lastEventNonce}, trying again in a moment, check txhash {txhash} for errors"

/-- Lines 111-204, once the logs are decoded: read this validator's last event nonce, keep
the events above it, and submit them in one claims message when there are any. -/
def submitNewClaims (ourCosmosAddress : CosmosAddress) (fee : Coin) (ans : WatcherAnswers)
    (latestBlock : Uint256) (dec : DecodedEvents) :
    Io WatcherCall (Except PeggyError Uint256) := do
  let lastEventNonce ← Io.call (.getLastEventNonce ourCosmosAddress) ans.lastEventNonce
  match lastEventNonce with
  | .error e => return .error e
  | .ok lastEventNonce =>
    let deposits := filterByEventNonce lastEventNonce dec.deposits
    let withdraws := filterByEventNonce lastEventNonce dec.withdraws
    let erc20Deploys := filterByEventNonce lastEventNonce dec.erc20Deploys
    let logicCalls := filterByEventNonce lastEventNonce dec.logicCalls
    if !deposits.isEmpty || !withdraws.isEmpty || !erc20Deploys.isEmpty || !logicCalls.isEmpty then
      let res ← Io.call
        (.sendEthereumClaims ⟨deposits, withdraws, erc20Deploys, logicCalls⟩ fee) ans.claimsResponse
      match res with
      | .error e => return .error e
      | .ok res =>
        let newEventNonce ← Io.call (.getLastEventNonce ourCosmosAddress) ans.newEventNonce
        match newEventNonce with
        | .error e => return .error e
        | .ok newEventNonce =>
          if newEventNonce = lastEventNonce then
            return .error (claimsDidNotProcess lastEventNonce res.txhash)
          else return .ok latestBlock
    else return .ok latestBlock

/-- Lines 88-104 and 205-210: go on only when all five queries succeeded. -/
def processLogs (fromLogs : EventKind → List Log → Except PeggyError (List Event))
    (ourCosmosAddress : CosmosAddress) (fee : Coin) (ans : WatcherAnswers) (latestBlock : Uint256)
    (valsets batches deposits erc20Deployed logicCallExecuted : Except Web3Error (List Log)) :
    Io WatcherCall (Except PeggyError Uint256) :=
  match valsets, batches, deposits, erc20Deployed, logicCallExecuted with
  | .ok valsets, .ok batches, .ok deposits, .ok deploys, .ok logicCalls =>
    match decodeLogs fromLogs valsets batches deposits deploys logicCalls with
    | .error e => return .error e
    | .ok dec => submitNewClaims ourCosmosAddress fee ans latestBlock dec
  | _, _, _, _, _ => return .error (.ethereumRestError (.badResponse "Failed to get logs!"))

/-- `check_for_events`. `fromLogs k` is `from_logs` of the event type of kind `k`. -/
def checkForEvents (fromLogs : EventKind → List Log → Except PeggyError (List Event))
    (peggyContractAddress : EthAddress) (ourCosmosAddress : CosmosAddress) (fee : Coin)
    (startingBlock : Uint256) (ans : WatcherAnswers) :
    Io WatcherCall (Except PeggyError Uint256) := do
  let latestBlock ← Io.call .getBlockNumberWithRetry ans.latestBlock
  let delay ← getBlockDelay ans.netVersion
  let some latestBlock := latestBlock.sub delay | Io.panic
  let query (k : EventKind) := Io.call
    (.checkForEvents startingBlock latestBlock [peggyContractAddress] [k.signature]) (ans.logs k)
  let deposits ← query .sendToCosmos
  let batches ← query .transactionBatchExecuted
  let valsets ← query .valsetUpdated
  let erc20Deployed ← query .erc20Deployed
  let logicCallExecuted ← query .logicCallExecuted
  processLogs fromLogs ourCosmosAddress fee ans latestBlock
    valsets batches deposits erc20Deployed logicCallExecuted

/-! ### One run of `check_for_events` -/

theorem except_bind_eq_ok {ε α β : Type} {x : Except ε α} {f : α → Except ε β} {b : β} :
    x >>= f = .ok b ↔ ∃ a, x = .ok a ∧ f a = .ok b := by
  cases x
  · simp only [bind, Except.bind, reduceCtorEq, false_and, exists_false]
  · simp only [bind, Except.bind, Except.ok.injEq, exists_eq_left']

def EventKind.queryOrder : List EventKind :=
  [.sendToCosmos, .transactionBatchExecuted, .valsetUpdated, .erc20Deployed, .logicCallExecuted]

theorem EventKind.mem_queryOrder (k : EventKind) : k ∈ queryOrder := by
  cases k <;> simp [queryOrder]

def WatcherCall.claims : WatcherCall → Option Claims
  | .sendEthereumClaims c _ _ => some c
  | _ => none

def sentClaims (calls : List WatcherCall) : List Claims := calls.filterMap WatcherCall.claims

@[simp] theorem sentClaims_nil : sentClaims [] = [] := rfl

@[simp] theorem sentClaims_cons (x : WatcherCall) (l : List WatcherCall) :
    sentClaims (x :: l) = x.claims.toList ++ sentClaims l := by
  cases h : x.claims <;> simp [sentClaims, List.filterMap_cons, h]

@[simp] theorem sentClaims_append (a b : List WatcherCall) :
    sentClaims (a ++ b) = sentClaims a ++ sentClaims b := List.filterMap_append _ _ _

/-- The run queried the logs of kind `k` and got `r`. -/
def Queried (calls : List WatcherCall) (k : EventKind) (r : Except Web3Error (List Log)) : Prop :=
  ∃ a b cs, WatcherCall.checkForEvents a b cs [k.signature] r ∈ calls

def queryCalls (c : EthAddress) (s latest : Uint256) (ans : WatcherAnswers) : List WatcherCall :=
  EventKind.queryOrder.map fun k => .checkForEvents s latest [c] [k.signature] (ans.logs k)

@[simp] theorem sentClaims_queryCalls (c : EthAddress) (s latest : Uint256) (ans : WatcherAnswers) :
    sentClaims (queryCalls c s latest ans) = [] := rfl

theorem claims_nonempty_iff (d w e l : List Event) :
    (!d.isEmpty || !w.isEmpty || !e.isEmpty || !l.isEmpty) = true ↔
      (⟨d, w, e, l⟩ : Claims) ≠ .empty := by
  cases d <;> cases w <;> cases e <;> cases l <;> simp [Claims.empty]

section
variable (fromLogs : EventKind → List Log → Except PeggyError (List Event))
  (c : EthAddress) (addr : CosmosAddress) (fee : Coin) (s : Uint256) (ans : WatcherAnswers)
  (latest : Uint256) (dec : DecodedEvents)

theorem decodeLogs_eq_ok (logs : EventKind → List Log) :
    decodeLogs fromLogs (logs .valsetUpdated) (logs .transactionBatchExecuted)
        (logs .sendToCosmos) (logs .erc20Deployed) (logs .logicCallExecuted) = .ok dec ↔
      ∀ k, fromLogs k (logs k) = .ok (dec.get k) := by
  simp only [decodeLogs, except_bind_eq_ok]
  constructor
  · rintro ⟨v, hv, w, hw, d, hd, e, he, l, hl, h⟩ k
    cases h
    cases k <;> assumption
  · intro h
    exact ⟨_, h .valsetUpdated, _, h .transactionBatchExecuted, _, h .sendToCosmos, _,
      h .erc20Deployed, _, h .logicCallExecuted, rfl⟩

theorem submit_condition (n : Nat) :
    (!(filterByEventNonce n dec.deposits).isEmpty || !(filterByEventNonce n dec.withdraws).isEmpty ||
      !(filterByEventNonce n dec.erc20Deploys).isEmpty ||
      !(filterByEventNonce n dec.logicCalls).isEmpty) = true ↔ claimsAbove n dec.get ≠ .empty :=
  claims_nonempty_iff _ _ _ _

/-- Every way a submission ends: on the first nonce read, with nothing above the nonce to
submit, or after submitting the events above it, at the failed submission or at the second
nonce read. -/
theorem submitNewClaims_cases :
    let run := submitNewClaims addr fee ans latest dec
    let read := WatcherCall.getLastEventNonce addr
    (∃ e, ans.lastEventNonce = .error e ∧ run = ⟨[read (.error e)], some (.error e)⟩) ∨
    ∃ n, ans.lastEventNonce = .ok n ∧
      ((claimsAbove n dec.get = .empty ∧ run = ⟨[read (.ok n)], some (.ok latest)⟩) ∨
      (claimsAbove n dec.get ≠ .empty ∧
        let send := WatcherCall.sendEthereumClaims (claimsAbove n dec.get) fee ans.claimsResponse
        ((∃ e, ans.claimsResponse = .error e ∧ run = ⟨[read (.ok n), send], some (.error e)⟩) ∨
        ∃ res, ans.claimsResponse = .ok res ∧
          ((∃ e, ans.newEventNonce = .error e ∧
            run = ⟨[read (.ok n), send, read (.error e)], some (.error e)⟩) ∨
          ∃ n1, ans.newEventNonce = .ok n1 ∧ run = ⟨[read (.ok n), send, read (.ok n1)],
            some (if n1 = n then .error (claimsDidNotProcess n res.txhash) else .ok latest)⟩)))) := by
  unfold submitNewClaims
  cases ans.lastEventNonce with
  | error e => exact .inl ⟨e, rfl, rfl⟩
  | ok n =>
    refine .inr ⟨n, rfl, ?_⟩
    simp only [Io.call_bind]
    by_cases hc : claimsAbove n dec.get = .empty
    · rw [if_neg (by rw [submit_condition, not_not]; exact hc)]
      exact .inl ⟨hc, rfl⟩
    · rw [if_pos ((submit_condition dec n).2 hc)]
      refine .inr ⟨hc, ?_⟩
      cases ans.claimsResponse with
      | error e => exact .inl ⟨e, rfl, rfl⟩
      | ok res =>
        refine .inr ⟨res, rfl, ?_⟩
        cases ans.newEventNonce with
        | error e => exact .inl ⟨e, rfl, rfl⟩
        | ok n1 => exact .inr ⟨n1, rfl, by dsimp only; split <;> rfl⟩

theorem sentClaims_submitNewClaims :
    sentClaims (submitNewClaims addr fee ans latest dec).calls =
      match ans.lastEventNonce with
      | .ok n => if claimsAbove n dec.get = .empty then [] else [claimsAbove n dec.get]
      | .error _ => [] := by
  rcases submitNewClaims_cases addr fee ans latest dec with ⟨e, he, h⟩ | ⟨n, hn, ⟨hc, h⟩ | ⟨hc, hrest⟩⟩
  · simp [he, h, WatcherCall.claims]
  · simp [hn, hc, h, WatcherCall.claims]
  · rcases hrest with ⟨e, -, h⟩ | ⟨res, -, ⟨e, -, h⟩ | ⟨n1, -, h⟩⟩ <;>
      simp [hn, hc, h, WatcherCall.claims]

theorem submitNewClaims_ret_ne_none : (submitNewClaims addr fee ans latest dec).ret ≠ none := by
  rcases submitNewClaims_cases addr fee ans latest dec with ⟨e, -, h⟩ | ⟨n, -, ⟨-, h⟩ | ⟨-, hrest⟩⟩
  · simp [h]
  · simp [h]
  · rcases hrest with ⟨e, -, h⟩ | ⟨res, -, ⟨e, -, h⟩ | ⟨n1, -, h⟩⟩ <;> simp [h]

theorem submitNewClaims_ret_ok {x : Uint256}
    (h : (submitNewClaims addr fee ans latest dec).ret = some (.ok x)) :
    x = latest ∧ ∃ n, ans.lastEventNonce = .ok n ∧
      (claimsAbove n dec.get = .empty ∨ ∃ n1, ans.newEventNonce = .ok n1 ∧ n1 ≠ n) := by
  rcases submitNewClaims_cases addr fee ans latest dec with
    ⟨e, -, hr⟩ | ⟨n, hn, ⟨hc, hr⟩ | ⟨-, ⟨e, -, hr⟩ | ⟨res, -, ⟨e, -, hr⟩ | ⟨n1, hn1, hr⟩⟩⟩⟩ <;>
    rw [hr] at h <;> simp only [Option.some.injEq, reduceCtorEq] at h
  · exact ⟨(Except.ok.inj h).symm, n, hn, .inl hc⟩
  · split at h
    · cases h
    · exact ⟨(Except.ok.inj h).symm, n, hn, .inr ⟨n1, hn1, ‹_›⟩⟩

theorem not_query_mem_submitNewClaims (a b : Uint256) (cs : List EthAddress) (es : List String)
    (r : Except Web3Error (List Log)) :
    WatcherCall.checkForEvents a b cs es r ∉ (submitNewClaims addr fee ans latest dec).calls := by
  rcases submitNewClaims_cases addr fee ans latest dec with ⟨e, -, h⟩ | ⟨n, -, ⟨-, h⟩ | ⟨-, hrest⟩⟩
  · simp [h]
  · simp [h]
  · rcases hrest with ⟨e, -, h⟩ | ⟨res, -, ⟨e, -, h⟩ | ⟨n1, -, h⟩⟩ <;> simp [h]

theorem processLogs_of_error (r : EventKind → Except Web3Error (List Log)) {k : EventKind}
    {e : Web3Error} (hk : r k = .error e) :
    processLogs fromLogs addr fee ans latest (r .valsetUpdated) (r .transactionBatchExecuted)
      (r .sendToCosmos) (r .erc20Deployed) (r .logicCallExecuted) =
      ⟨[], some (.error (.ethereumRestError (.badResponse "Failed to get logs!")))⟩ := by
  unfold processLogs
  split
  · cases k <;> simp_all
  · rfl

theorem processLogs_of_ok (r : EventKind → Except Web3Error (List Log))
    (logs : EventKind → List Log) (hr : ∀ k, r k = .ok (logs k)) :
    processLogs fromLogs addr fee ans latest (r .valsetUpdated) (r .transactionBatchExecuted)
      (r .sendToCosmos) (r .erc20Deployed) (r .logicCallExecuted) =
      match decodeLogs fromLogs (logs .valsetUpdated) (logs .transactionBatchExecuted)
        (logs .sendToCosmos) (logs .erc20Deployed) (logs .logicCallExecuted) with
      | .error e => ⟨[], some (.error e)⟩
      | .ok dec => submitNewClaims addr fee ans latest dec := by
  simp only [hr]
  rfl

theorem checkForEvents_of_underflow (h : ans.latestBlock.val < (blockDelay ans.netVersion).val) :
    checkForEvents fromLogs c addr fee s ans =
      ⟨[.getBlockNumberWithRetry ans.latestBlock, .getNetVersionWithRetry ans.netVersion], none⟩ := by
  have h' : ans.latestBlock.sub (blockDelay ans.netVersion) = none := Uint256.sub_eq_none.2 h
  simp only [checkForEvents, getBlockDelay, Io.call_bind, Io.pure_calls, Io.pure_ret,
    Io.mk_some_bind, List.singleton_append, h', Io.panic_calls, Io.panic_ret]

theorem checkForEvents_of_sub (h : ans.latestBlock.sub (blockDelay ans.netVersion) = some latest) :
    checkForEvents fromLogs c addr fee s ans =
      let p := processLogs fromLogs addr fee ans latest (ans.logs .valsetUpdated)
        (ans.logs .transactionBatchExecuted) (ans.logs .sendToCosmos) (ans.logs .erc20Deployed)
        (ans.logs .logicCallExecuted)
      ⟨.getBlockNumberWithRetry ans.latestBlock :: .getNetVersionWithRetry ans.netVersion ::
        queryCalls c s latest ans ++ p.calls, p.ret⟩ := by
  simp only [checkForEvents, getBlockDelay, Io.call_bind, Io.pure_calls, Io.pure_ret,
    Io.mk_some_bind, List.singleton_append, h, Io.mk_calls, Io.mk_ret, queryCalls,
    EventKind.queryOrder, List.map_cons, List.map_nil, List.cons_append]
  rfl

/-- Past the block subtraction a run either decodes all five logs and goes on to submit, or
stops with an error right after its five queries. -/
theorem checkForEvents_scan (h : ans.latestBlock.sub (blockDelay ans.netVersion) = some latest) :
    (∃ (logs : EventKind → List Log) (dec : DecodedEvents), (∀ k, ans.logs k = .ok (logs k)) ∧ (∀ k, fromLogs k (logs k) = .ok (dec.get k)) ∧
      checkForEvents fromLogs c addr fee s ans =
        ⟨.getBlockNumberWithRetry ans.latestBlock :: .getNetVersionWithRetry ans.netVersion ::
          queryCalls c s latest ans ++ (submitNewClaims addr fee ans latest dec).calls,
          (submitNewClaims addr fee ans latest dec).ret⟩) ∨
    (¬ ∃ (logs : EventKind → List Log) (dec : DecodedEvents), (∀ k, ans.logs k = .ok (logs k)) ∧
        ∀ k, fromLogs k (logs k) = .ok (dec.get k)) ∧
      ∃ e, checkForEvents fromLogs c addr fee s ans =
        ⟨.getBlockNumberWithRetry ans.latestBlock :: .getNetVersionWithRetry ans.netVersion ::
          queryCalls c s latest ans, some (.error e)⟩ := by
  rw [checkForEvents_of_sub fromLogs c addr fee s ans latest h]
  by_cases hall : ∀ k, ∃ l, ans.logs k = .ok l
  · choose logs hl using hall
    rw [processLogs_of_ok fromLogs addr fee ans latest ans.logs logs hl]
    cases hd : decodeLogs fromLogs (logs .valsetUpdated) (logs .transactionBatchExecuted)
        (logs .sendToCosmos) (logs .erc20Deployed) (logs .logicCallExecuted) with
    | error e =>
      refine .inr ⟨?_, e, by simp⟩
      rintro ⟨logs', dec, hl', hd'⟩
      have : logs' = logs := funext fun k => by simpa [hl k] using (hl' k).symm
      subst this
      simp [(decodeLogs_eq_ok fromLogs dec logs').2 hd'] at hd
    | ok dec => exact .inl ⟨logs, dec, hl, (decodeLogs_eq_ok fromLogs dec logs).1 hd, rfl⟩
  · push_neg at hall
    obtain ⟨k, hk⟩ := hall
    cases hlk : ans.logs k with
    | ok l => exact absurd hlk (hk l)
    | error e =>
      rw [processLogs_of_error fromLogs addr fee ans latest ans.logs hlk]
      exact .inr ⟨fun ⟨logs, _, hl, _⟩ => by simp [hl k] at hlk, _, rfl⟩

end

theorem query_mem_run {c : EthAddress} {s latest : Uint256} {ans : WatcherAnswers}
    {x y : WatcherCall} {rest : List WatcherCall} (hx : ∀ a b cs es r, x ≠ .checkForEvents a b cs es r)
    (hy : ∀ a b cs es r, y ≠ .checkForEvents a b cs es r)
    (hrest : ∀ a b cs es r, WatcherCall.checkForEvents a b cs es r ∉ rest)
    {a b : Uint256} {cs : List EthAddress} {es : List String} {r : Except Web3Error (List Log)} :
    WatcherCall.checkForEvents a b cs es r ∈ x :: y :: queryCalls c s latest ans ++ rest ↔
      a = s ∧ b = latest ∧ cs = [c] ∧ ∃ k, es = [k.signature] ∧ r = ans.logs k := by
  simp only [List.mem_cons, List.mem_append, queryCalls, List.mem_map, (hx _ _ _ _ _).symm,
    (hy _ _ _ _ _).symm, hrest, false_or, or_false, WatcherCall.checkForEvents.injEq]
  constructor
  · rintro ⟨k, -, rfl, rfl, rfl, rfl, rfl⟩
    exact ⟨rfl, rfl, rfl, k, rfl, rfl⟩
  · rintro ⟨rfl, rfl, rfl, k, rfl, rfl⟩
    exact ⟨k, EventKind.mem_queryOrder k, rfl, rfl, rfl, rfl, rfl⟩

def DecodedEvents.ofGet (evs : EventKind → List Event) : DecodedEvents :=
  ⟨evs .valsetUpdated, evs .transactionBatchExecuted, evs .sendToCosmos, evs .erc20Deployed,
    evs .logicCallExecuted⟩

@[simp] theorem DecodedEvents.get_ofGet (evs : EventKind → List Event) :
    (DecodedEvents.ofGet evs).get = evs := by
  funext k; cases k <;> rfl

section
variable (fromLogs : EventKind → List Log → Except PeggyError (List Event))
  (c : EthAddress) (addr : CosmosAddress) (fee : Coin) (s : Uint256) (ans : WatcherAnswers)

theorem query_mem_checkForEvents {a b : Uint256} {cs : List EthAddress} {es : List String}
    {r : Except Web3Error (List Log)} :
    WatcherCall.checkForEvents a b cs es r ∈ (checkForEvents fromLogs c addr fee s ans).calls ↔
      ∃ latest, ans.latestBlock.sub (blockDelay ans.netVersion) = some latest ∧ a = s ∧
        b = latest ∧ cs = [c] ∧ ∃ k, es = [k.signature] ∧ r = ans.logs k := by
  cases hsub : ans.latestBlock.sub (blockDelay ans.netVersion) with
  | none =>
    rw [checkForEvents_of_underflow fromLogs c addr fee s ans (Uint256.sub_eq_none.1 hsub)]
    simp only [List.mem_cons, List.mem_singleton, reduceCtorEq, or_self, List.not_mem_nil,
      false_and, exists_false]
  | some latest =>
    simp only [Option.some.injEq, exists_eq_left']
    rcases checkForEvents_scan fromLogs c addr fee s ans latest hsub with
      ⟨logs, dec, -, -, hrun⟩ | ⟨-, e, hrun⟩ <;> rw [hrun]
    · exact query_mem_run (by simp) (by simp) (not_query_mem_submitNewClaims addr fee ans latest dec)
    · simpa only [List.append_nil] using @query_mem_run c s latest ans
        (.getBlockNumberWithRetry ans.latestBlock) (.getNetVersionWithRetry ans.netVersion) []
        (by simp) (by simp) (by simp) a b cs es r

theorem queried_checkForEvents {k : EventKind} {r : Except Web3Error (List Log)} :
    Queried (checkForEvents fromLogs c addr fee s ans).calls k r ↔
      r = ans.logs k ∧ (blockDelay ans.netVersion).val ≤ ans.latestBlock.val := by
  simp only [Queried, query_mem_checkForEvents, List.cons.injEq, and_true]
  constructor
  · rintro ⟨a, b, cs, latest, hsub, -, -, -, k', hk, rfl⟩
    rw [EventKind.signature_injective hk]
    exact ⟨rfl, (Uint256.sub_eq_some.1 hsub).1⟩
  · rintro ⟨rfl, hle⟩
    obtain ⟨latest, hsub⟩ : ∃ latest, ans.latestBlock.sub (blockDelay ans.netVersion) = some latest := by
      cases h : ans.latestBlock.sub (blockDelay ans.netVersion) with
      | none => exact absurd (Uint256.sub_eq_none.1 h) (not_lt.2 hle)
      | some latest => exact ⟨latest, rfl⟩
    exact ⟨s, latest, [c], latest, hsub, rfl, rfl, rfl, k, rfl, rfl⟩

/-- A run submits at most one claims message: the decoded events above the nonce read
after decoding, exactly when there are any. Once the head is past the delay, the five answers
are what decide: with all of them decoded the claims are those above the nonce, and with one
failing the run returns an error and submits nothing. -/
theorem checkForEvents_submits_exactly_new_claims :
    (sentClaims (checkForEvents fromLogs c addr fee s ans).calls).length ≤ 1 ∧
    (∀ cl ∈ sentClaims (checkForEvents fromLogs c addr fee s ans).calls,
      ∃ (logs : EventKind → List Log) (evs : EventKind → List Event) (n0 : Nat),
      (∀ k, Queried (checkForEvents fromLogs c addr fee s ans).calls k (.ok (logs k))) ∧
      (∀ k, fromLogs k (logs k) = .ok (evs k)) ∧ ans.lastEventNonce = .ok n0 ∧
      cl = claimsAbove n0 evs ∧ cl ≠ .empty) ∧
    (∀ (logs : EventKind → List Log) (evs : EventKind → List Event) (n0 : Nat),
      (blockDelay ans.netVersion).val ≤ ans.latestBlock.val →
      (∀ k, ans.logs k = .ok (logs k)) →
      (∀ k, fromLogs k (logs k) = .ok (evs k)) → ans.lastEventNonce = .ok n0 →
      sentClaims (checkForEvents fromLogs c addr fee s ans).calls =
        if claimsAbove n0 evs = .empty then [] else [claimsAbove n0 evs]) ∧
    ((blockDelay ans.netVersion).val ≤ ans.latestBlock.val →
      (∃ k e, ans.logs k = .error e) ∨
        (∃ k logs e, ans.logs k = .ok logs ∧ fromLogs k logs = .error e) →
      (∃ e, (checkForEvents fromLogs c addr fee s ans).ret = some (.error e)) ∧
        sentClaims (checkForEvents fromLogs c addr fee s ans).calls = []) := by
  set run := checkForEvents fromLogs c addr fee s ans
  cases hsub : ans.latestBlock.sub (blockDelay ans.netVersion) with
  | none =>
    have hu := Uint256.sub_eq_none.1 hsub
    have hrun : run = _ := checkForEvents_of_underflow fromLogs c addr fee s ans hu
    have hsent : sentClaims run.calls = [] := by simp [hrun, sentClaims, WatcherCall.claims]
    exact ⟨by simp [hsent], fun cl hcl => by simp [hsent] at hcl,
      fun _ _ _ hle => absurd hle (not_le.2 hu), fun hle => absurd hle (not_le.2 hu)⟩
  | some latest =>
    rcases checkForEvents_scan fromLogs c addr fee s ans latest hsub with
      ⟨logs, dec, hl, hd, hrun⟩ | ⟨hnot, e, hrun⟩
    · -- the scan succeeded: the claims are those of `submitNewClaims`
      have hsent : sentClaims run.calls = match ans.lastEventNonce with
          | .ok n => if claimsAbove n dec.get = .empty then [] else [claimsAbove n dec.get]
          | .error _ => [] := by
        rw [show run = _ from hrun, ← sentClaims_submitNewClaims addr fee ans latest dec]
        simp [WatcherCall.claims]
      refine ⟨?_, ?_, ?_, ?_⟩
      · rw [hsent]; split <;> (try split) <;> simp
      · intro cl hcl
        rw [hsent] at hcl
        split at hcl <;> (try split at hcl) <;> simp at hcl
        rename_i n hn hc
        exact ⟨logs, dec.get, n, fun k => (queried_checkForEvents fromLogs c addr fee s ans).2
          ⟨(hl k).symm, (Uint256.sub_eq_some.1 hsub).1⟩, hd, hn, hcl, hcl ▸ hc⟩
      · intro logs' evs n0 _ hl' hev hn0
        obtain rfl : logs' = logs := funext fun k => Except.ok.inj ((hl' k).symm.trans (hl k))
        obtain rfl : evs = dec.get := funext fun k => Except.ok.inj ((hev k).symm.trans (hd k))
        rw [hsent, hn0]
      · rintro - (⟨k, e, hk⟩ | ⟨k, logs', e, hk, he⟩)
        · exact nomatch hk.symm.trans (hl k)
        · obtain rfl := Except.ok.inj (hk.symm.trans (hl k))
          simp [hd k] at he
    · -- the scan failed: the run stops with an error after its queries
      have hsent : sentClaims run.calls = [] := by
        rw [show run = _ from hrun]; simp [WatcherCall.claims]
      refine ⟨by simp [hsent], fun cl hcl => by simp [hsent] at hcl, ?_,
        fun _ _ => ⟨⟨e, by rw [show run = _ from hrun]⟩, hsent⟩⟩
      intro logs evs n0 _ hl' hev _
      exact absurd ⟨logs, DecodedEvents.ofGet evs, hl',
        by simpa only [DecodedEvents.get_ofGet] using hev⟩ hnot

/-- A run panics exactly when the chain head is below the block delay. -/
theorem checkForEvents_ret_eq_none_iff :
    (checkForEvents fromLogs c addr fee s ans).ret = none ↔
      ans.latestBlock.val < (blockDelay ans.netVersion).val := by
  cases hsub : ans.latestBlock.sub (blockDelay ans.netVersion) with
  | none =>
    have hu := Uint256.sub_eq_none.1 hsub
    simp [checkForEvents_of_underflow fromLogs c addr fee s ans hu, hu]
  | some latest =>
    have hle := (Uint256.sub_eq_some.1 hsub).1
    rcases checkForEvents_scan fromLogs c addr fee s ans latest hsub with
      ⟨logs, dec, -, -, hrun⟩ | ⟨-, e, hrun⟩ <;> rw [hrun] <;> simp only [not_lt.2 hle, iff_false]
    · exact submitNewClaims_ret_ne_none addr fee ans latest dec
    · simp

/-- On a network `get_block_delay` does not know, such as a local chain with id 31337, a run
at block 3 panics in `latest_block - get_block_delay(web3)`. -/
theorem checkForEvents_panics_on_young_unknown_chain (logs : EventKind → Except Web3Error (List Log))
    (lastEventNonce newEventNonce : Except PeggyError Nat) (res : Except PeggyError TxResponse) :
    (checkForEvents fromLogs c addr fee s
      ⟨⟨3, by omega⟩, 31337, logs, lastEventNonce, res, newEventNonce⟩).ret = none :=
  (checkForEvents_ret_eq_none_iff fromLogs c addr fee s _).2
    (show 3 < (blockDelay 31337).val by rw [blockDelay_val]; decide)

end

end Peggy
