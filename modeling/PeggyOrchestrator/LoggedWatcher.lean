import PeggyOrchestrator.EventWatcher
import PeggyOrchestrator.JsonLogger
set_option autoImplicit false

/-!
`check_for_events` with its structured-log calls: the four `sinfo!` of lines 120-171, one
for each filtered event list that is not empty, and the `sinfo!` of lines 198-201 once the
validator's nonce has moved. Everything else is `checkForEvents`. With a log file that opens,
the logged run makes the plain run's adapter calls and returns its result; with one that does
not, the run panics just before it would submit claims.
-/

namespace Peggy

namespace WatcherCall

variable {b s l : Uint256} {n : Nat} {cs : List EthAddress} {es : List String}
  {logs : Except Web3Error (List Log)} {v : CosmosAddress} {nonce : Except PeggyError Nat}
  {c : Claims} {fee : Coin} {r : Except PeggyError TxResponse}

@[simp] theorem claims_getBlockNumberWithRetry : (getBlockNumberWithRetry b).claims = none := rfl
@[simp] theorem claims_getNetVersionWithRetry : (getNetVersionWithRetry n).claims = none := rfl
@[simp] theorem claims_checkForEvents : (checkForEvents s l cs es logs).claims = none := rfl
@[simp] theorem claims_getLastEventNonce : (getLastEventNonce v nonce).claims = none := rfl
@[simp] theorem claims_sendEthereumClaims : (sendEthereumClaims c fee r).claims = some c := rfl

end WatcherCall

def slogIfObserved (ok : Bool) (tag : String) (events : List Event) :
    Io (Logged WatcherCall) Unit :=
  if !events.isEmpty then Io.slog ok tag else pure ()

/-- Lines 120-171: one `sinfo!` for each of the four filtered lists that is not empty, in the
source's order. -/
def slogObserved (ok : Bool) (deposits withdraws erc20Deploys logicCalls : List Event) :
    Io (Logged WatcherCall) Unit := do
  slogIfObserved ok "ORACLE_OBSERVED_DEPOSIT" deposits
  slogIfObserved ok "ORACLE_OBSERVED_BATCH" withdraws
  slogIfObserved ok "ORACLE_OBSERVED_ERC20_DEPLOYMENT" erc20Deploys
  slogIfObserved ok "ORACLE_OBSERVED_LOGIC_CALL_EXECUTION" logicCalls

/-- Lines 111-204 with their structured-log calls; `ok` is whether `LOGGING` returns. -/
def submitNewClaimsLogged (ok : Bool) (ourCosmosAddress : CosmosAddress) (fee : Coin)
    (ans : WatcherAnswers) (latestBlock : Uint256) (dec : DecodedEvents) :
    Io (Logged WatcherCall) (Except PeggyError Uint256) := do
  let lastEventNonce ← Io.adapter (.getLastEventNonce ourCosmosAddress) ans.lastEventNonce
  match lastEventNonce with
  | .error e => return .error e
  | .ok lastEventNonce =>
    let deposits := filterByEventNonce lastEventNonce dec.deposits
    let withdraws := filterByEventNonce lastEventNonce dec.withdraws
    let erc20Deploys := filterByEventNonce lastEventNonce dec.erc20Deploys
    let logicCalls := filterByEventNonce lastEventNonce dec.logicCalls
    slogObserved ok deposits withdraws erc20Deploys logicCalls
    if !deposits.isEmpty || !withdraws.isEmpty || !erc20Deploys.isEmpty || !logicCalls.isEmpty then
      let res ← Io.adapter
        (.sendEthereumClaims ⟨deposits, withdraws, erc20Deploys, logicCalls⟩ fee) ans.claimsResponse
      match res with
      | .error e => return .error e
      | .ok res =>
        let newEventNonce ← Io.adapter (.getLastEventNonce ourCosmosAddress) ans.newEventNonce
        match newEventNonce with
        | .error e => return .error e
        | .ok newEventNonce =>
          if newEventNonce = lastEventNonce then
            return .error (claimsDidNotProcess lastEventNonce res.txhash)
          else
            Io.slog ok "CLAIMS_PROCESSED"
            return .ok latestBlock
    else return .ok latestBlock

/-- Lines 88-104 and 205-210, going on to the logged submission. -/
def processLogsLogged (ok : Bool)
    (fromLogs : EventKind → List Log → Except PeggyError (List Event))
    (ourCosmosAddress : CosmosAddress) (fee : Coin) (ans : WatcherAnswers) (latestBlock : Uint256)
    (valsets batches deposits erc20Deployed logicCallExecuted : Except Web3Error (List Log)) :
    Io (Logged WatcherCall) (Except PeggyError Uint256) :=
  match valsets, batches, deposits, erc20Deployed, logicCallExecuted with
  | .ok valsets, .ok batches, .ok deposits, .ok deploys, .ok logicCalls =>
    match decodeLogs fromLogs valsets batches deposits deploys logicCalls with
    | .error e => return .error e
    | .ok dec => submitNewClaimsLogged ok ourCosmosAddress fee ans latestBlock dec
  | _, _, _, _, _ => return .error (.ethereumRestError (.badResponse "Failed to get logs!"))

/-- `check_for_events` with its structured-log calls. -/
def checkForEventsLogged (ok : Bool)
    (fromLogs : EventKind → List Log → Except PeggyError (List Event))
    (peggyContractAddress : EthAddress) (ourCosmosAddress : CosmosAddress) (fee : Coin)
    (startingBlock : Uint256) (ans : WatcherAnswers) :
    Io (Logged WatcherCall) (Except PeggyError Uint256) := do
  let latestBlock ← Io.adapter .getBlockNumberWithRetry ans.latestBlock
  let delay ← (getBlockDelay ans.netVersion).lift
  let some latestBlock := latestBlock.sub delay | Io.panic
  let query (k : EventKind) := Io.adapter
    (.checkForEvents startingBlock latestBlock [peggyContractAddress] [k.signature]) (ans.logs k)
  let deposits ← query .sendToCosmos
  let batches ← query .transactionBatchExecuted
  let valsets ← query .valsetUpdated
  let erc20Deployed ← query .erc20Deployed
  let logicCallExecuted ← query .logicCallExecuted
  processLogsLogged ok fromLogs ourCosmosAddress fee ans latestBlock
    valsets batches deposits erc20Deployed logicCallExecuted

def observedTags (deposits withdraws erc20Deploys logicCalls : List Event) : List String :=
  (if deposits.isEmpty then [] else ["ORACLE_OBSERVED_DEPOSIT"]) ++
    (if withdraws.isEmpty then [] else ["ORACLE_OBSERVED_BATCH"]) ++
    (if erc20Deploys.isEmpty then [] else ["ORACLE_OBSERVED_ERC20_DEPLOYMENT"]) ++
    (if logicCalls.isEmpty then [] else ["ORACLE_OBSERVED_LOGIC_CALL_EXECUTION"])

section
variable (d w e l : List Event)

theorem slogObserved_true :
    slogObserved true d w e l = ⟨(observedTags d w e l).map (.slog · true), some ()⟩ := by
  unfold slogObserved slogIfObserved observedTags
  cases d.isEmpty <;> cases w.isEmpty <;> cases e.isEmpty <;> cases l.isEmpty <;> rfl

theorem slogObserved_false :
    slogObserved false d w e l =
      match observedTags d w e l with
      | [] => pure ()
      | t :: _ => ⟨[.slog t false], none⟩ := by
  unfold slogObserved slogIfObserved observedTags
  cases d.isEmpty <;> cases w.isEmpty <;> cases e.isEmpty <;> cases l.isEmpty <;> rfl

@[simp] theorem erase_slogObserved_true_bind {β : Type} (f : Unit → Io (Logged WatcherCall) β) :
    (slogObserved true d w e l >>= f).erase = (f ()).erase := by
  rw [slogObserved_true]
  simp [Io.erase, List.filterMap_map, Function.comp_def]

theorem observedTags_eq_nil :
    observedTags d w e l = [] ↔
      (!d.isEmpty || !w.isEmpty || !e.isEmpty || !l.isEmpty) = false := by
  unfold observedTags
  cases d.isEmpty <;> cases w.isEmpty <;> cases e.isEmpty <;> cases l.isEmpty <;> decide

end

section
variable (addr : CosmosAddress) (fee : Coin) (ans : WatcherAnswers) (latest : Uint256)
  (dec : DecodedEvents)

theorem erase_submitNewClaimsLogged_true :
    (submitNewClaimsLogged true addr fee ans latest dec).erase =
      submitNewClaims addr fee ans latest dec := by
  unfold submitNewClaimsLogged submitNewClaims
  simp only [Io.erase_adapter_bind]
  congr 1; funext x
  cases x with
  | error e => rfl
  | ok n =>
    simp only [erase_slogObserved_true_bind]
    split
    · simp only [Io.erase_adapter_bind]
      congr 1; funext r
      cases r with
      | error e => rfl
      | ok r =>
        simp only [Io.erase_adapter_bind]
        congr 1; funext m
        cases m with
        | error e => rfl
        | ok m => dsimp only; split <;> rfl
    · rfl

theorem erase_submitNewClaimsLogged_false :
    (submitNewClaimsLogged false addr fee ans latest dec).erase =
      if sentClaims (submitNewClaims addr fee ans latest dec).calls = [] then
        submitNewClaims addr fee ans latest dec
      else ⟨(submitNewClaims addr fee ans latest dec).calls.takeWhile (·.claims.isNone), none⟩ := by
  have hsent := sentClaims_submitNewClaims addr fee ans latest dec
  rcases submitNewClaims_cases addr fee ans latest dec with
    ⟨e, he, h⟩ | ⟨n, hn, ⟨hc, h⟩ | ⟨hc, hrest⟩⟩
  · rw [he] at hsent
    rw [if_pos hsent, h]
    unfold submitNewClaimsLogged
    rw [he]
    rfl
  · simp only [hn, hc, ↓reduceIte] at hsent
    rw [if_pos hsent, h]
    unfold submitNewClaimsLogged
    have hcond := (submit_condition dec n).not.2 (not_not.2 hc)
    rw [Bool.not_eq_true] at hcond
    simp only [hn, Io.adapter_bind, slogObserved_false, (observedTags_eq_nil _ _ _ _).2 hcond,
      Io.pure_bind, hcond]
    rfl
  · simp only [hn, hc, ↓reduceIte] at hsent
    rw [if_neg (by simp [hsent])]
    unfold submitNewClaimsLogged
    have hcond := (submit_condition dec n).2 hc
    have hne : observedTags (filterByEventNonce n dec.deposits) (filterByEventNonce n dec.withdraws)
        (filterByEventNonce n dec.erc20Deploys) (filterByEventNonce n dec.logicCalls) ≠ [] := by
      rw [Ne, observedTags_eq_nil, hcond]
      decide
    obtain ⟨t, ts, ht⟩ := List.exists_cons_of_ne_nil hne
    simp only [hn, Io.adapter_bind, slogObserved_false, ht, Io.slog_false_bind]
    rcases hrest with ⟨e, -, h⟩ | ⟨r, -, ⟨e, -, h⟩ | ⟨m, -, h⟩⟩ <;> rw [h] <;> rfl

theorem submitNewClaimsLogged_loggedBefore (ok : Bool) :
    LoggedBefore (·.claims.isSome) (submitNewClaimsLogged ok addr fee ans latest dec).calls := by
  simp only [submitNewClaimsLogged, Io.adapter_bind]
  refine .call_cons rfl ?_
  cases ans.lastEventNonce with
  | error e => exact .of_forall (by simp)
  | ok n =>
    cases ht : observedTags (filterByEventNonce n dec.deposits) (filterByEventNonce n dec.withdraws)
      (filterByEventNonce n dec.erc20Deploys) (filterByEventNonce n dec.logicCalls) with
    | nil =>
      have hcond := (observedTags_eq_nil _ _ _ _).1 ht
      cases ok <;> simp only [slogObserved_true, slogObserved_false, ht, List.map_nil,
        Io.mk_some_bind, Io.pure_bind, List.nil_append, hcond, Bool.false_eq_true, ↓reduceIte] <;>
        exact .of_forall (by simp)
    | cons t ts =>
      cases ok
      · simp only [slogObserved_false, ht, Io.mk_none_bind]
        exact .of_forall (by simp)
      · simp only [slogObserved_true, ht, List.map_cons, Io.mk_some_bind, List.cons_append]
        exact .returned_cons t _

end

/-- What the five query answers and the decoders settle before the native chain is asked
(lines 88-104 and 205-210): the error the run returns, or the decoded events. -/
def scanResult (fromLogs : EventKind → List Log → Except PeggyError (List Event))
    (valsets batches deposits erc20Deployed logicCallExecuted : Except Web3Error (List Log)) :
    Except PeggyError DecodedEvents :=
  match valsets, batches, deposits, erc20Deployed, logicCallExecuted with
  | .ok valsets, .ok batches, .ok deposits, .ok deploys, .ok logicCalls =>
    decodeLogs fromLogs valsets batches deposits deploys logicCalls
  | _, _, _, _, _ => .error (.ethereumRestError (.badResponse "Failed to get logs!"))

section
variable (fromLogs : EventKind → List Log → Except PeggyError (List Event))
  (c : EthAddress) (addr : CosmosAddress) (fee : Coin) (s : Uint256) (ans : WatcherAnswers)
  (latest : Uint256) (ok : Bool)

theorem claims_of_mem_queryRun {x : WatcherCall} {latest : Uint256}
    (h : x ∈ WatcherCall.getBlockNumberWithRetry ans.latestBlock ::
      WatcherCall.getNetVersionWithRetry ans.netVersion :: queryCalls c s latest ans) :
    x.claims = none := by
  simp only [List.mem_cons] at h
  rcases h with rfl | rfl | h
  · rfl
  · rfl
  · obtain ⟨k, -, rfl⟩ := List.mem_map.1 h
    rfl

theorem processLogs_eq_scanResult (v b d e l : Except Web3Error (List Log)) :
    processLogs fromLogs addr fee ans latest v b d e l =
      match scanResult fromLogs v b d e l with
      | .error err => pure (.error err)
      | .ok dec => submitNewClaims addr fee ans latest dec := by
  unfold processLogs scanResult
  cases v <;> cases b <;> cases d <;> cases e <;> cases l <;> rfl

theorem erase_processLogsLogged (v b d e l : Except Web3Error (List Log)) :
    (processLogsLogged ok fromLogs addr fee ans latest v b d e l).erase =
      match scanResult fromLogs v b d e l with
      | .error err => pure (.error err)
      | .ok dec => (submitNewClaimsLogged ok addr fee ans latest dec).erase := by
  unfold processLogsLogged scanResult
  cases v <;> cases b <;> cases d <;> cases e <;> cases l <;> first | rfl | (dsimp only; split <;> rfl)

theorem checkForEventsLogged_of_underflow
    (h : ans.latestBlock.val < (blockDelay ans.netVersion).val) :
    checkForEventsLogged ok fromLogs c addr fee s ans =
      ⟨[.call (.getBlockNumberWithRetry ans.latestBlock),
        .call (.getNetVersionWithRetry ans.netVersion)], none⟩ := by
  have h' : ans.latestBlock.sub (blockDelay ans.netVersion) = none := Uint256.sub_eq_none.2 h
  simp only [checkForEventsLogged, getBlockDelay, Io.lift, Io.adapter_bind, Io.call_bind,
    Io.pure_calls, Io.pure_ret, Io.mk_some_bind, h']
  rfl

theorem checkForEventsLogged_of_sub
    (h : ans.latestBlock.sub (blockDelay ans.netVersion) = some latest) :
    checkForEventsLogged ok fromLogs c addr fee s ans =
      let p := processLogsLogged ok fromLogs addr fee ans latest (ans.logs .valsetUpdated)
        (ans.logs .transactionBatchExecuted) (ans.logs .sendToCosmos) (ans.logs .erc20Deployed)
        (ans.logs .logicCallExecuted)
      ⟨(.getBlockNumberWithRetry ans.latestBlock :: .getNetVersionWithRetry ans.netVersion ::
        queryCalls c s latest ans).map .call ++ p.calls, p.ret⟩ := by
  simp only [checkForEventsLogged, getBlockDelay, Io.lift, Io.adapter_bind, Io.call_bind,
    Io.pure_calls, Io.pure_ret, Io.mk_some_bind, h, queryCalls, EventKind.queryOrder]
  rfl

theorem erase_checkForEventsLogged_of_sub
    (h : ans.latestBlock.sub (blockDelay ans.netVersion) = some latest) :
    (checkForEventsLogged ok fromLogs c addr fee s ans).erase =
      let p := (processLogsLogged ok fromLogs addr fee ans latest (ans.logs .valsetUpdated)
        (ans.logs .transactionBatchExecuted) (ans.logs .sendToCosmos) (ans.logs .erc20Deployed)
        (ans.logs .logicCallExecuted)).erase
      ⟨.getBlockNumberWithRetry ans.latestBlock :: .getNetVersionWithRetry ans.netVersion ::
        queryCalls c s latest ans ++ p.calls, p.ret⟩ := by
  rw [checkForEventsLogged_of_sub fromLogs c addr fee s ans latest ok h]
  simp [Io.erase, List.filterMap_map, Function.comp_def]

/-- With a log file that opens, the structured logging of `check_for_events` changes none of
its adapter calls and not its result. -/
theorem erase_checkForEventsLogged_true :
    (checkForEventsLogged true fromLogs c addr fee s ans).erase =
      checkForEvents fromLogs c addr fee s ans := by
  cases hsub : ans.latestBlock.sub (blockDelay ans.netVersion) with
  | none =>
    have hu := Uint256.sub_eq_none.1 hsub
    rw [checkForEventsLogged_of_underflow fromLogs c addr fee s ans true hu,
      checkForEvents_of_underflow fromLogs c addr fee s ans hu]
    rfl
  | some latest =>
    rw [erase_checkForEventsLogged_of_sub fromLogs c addr fee s ans latest true hsub,
      checkForEvents_of_sub fromLogs c addr fee s ans latest hsub]
    dsimp only
    rw [erase_processLogsLogged, processLogs_eq_scanResult]
    cases scanResult fromLogs (ans.logs .valsetUpdated) (ans.logs .transactionBatchExecuted)
      (ans.logs .sendToCosmos) (ans.logs .erc20Deployed) (ans.logs .logicCallExecuted) with
    | error err => rfl
    | ok dec => simp only [erase_submitNewClaimsLogged_true]

/-- With a log file that cannot be opened, `check_for_events` runs as the plain function
whenever it has no claims to submit; when it has some, it panics right before submitting them,
after the same calls as the plain run. -/
theorem erase_checkForEventsLogged_false :
    (checkForEventsLogged false fromLogs c addr fee s ans).erase =
      if sentClaims (checkForEvents fromLogs c addr fee s ans).calls = [] then
        checkForEvents fromLogs c addr fee s ans
      else ⟨(checkForEvents fromLogs c addr fee s ans).calls.takeWhile (·.claims.isNone), none⟩ := by
  cases hsub : ans.latestBlock.sub (blockDelay ans.netVersion) with
  | none =>
    have hu := Uint256.sub_eq_none.1 hsub
    rw [checkForEventsLogged_of_underflow fromLogs c addr fee s ans false hu,
      checkForEvents_of_underflow fromLogs c addr fee s ans hu]
    simp
  | some latest =>
    rw [erase_checkForEventsLogged_of_sub fromLogs c addr fee s ans latest false hsub,
      checkForEvents_of_sub fromLogs c addr fee s ans latest hsub]
    dsimp only
    rw [erase_processLogsLogged, processLogs_eq_scanResult]
    cases scanResult fromLogs (ans.logs .valsetUpdated) (ans.logs .transactionBatchExecuted)
      (ans.logs .sendToCosmos) (ans.logs .erc20Deployed) (ans.logs .logicCallExecuted) with
    | error err => simp
    | ok dec =>
      dsimp only
      rw [erase_submitNewClaimsLogged_false]
      have hpre : ∀ x ∈ WatcherCall.getBlockNumberWithRetry ans.latestBlock ::
          WatcherCall.getNetVersionWithRetry ans.netVersion :: queryCalls c s latest ans,
          x.claims.isNone = true := fun x hx => by simp [claims_of_mem_queryRun c s ans hx]
      have hsent : sentClaims (WatcherCall.getBlockNumberWithRetry ans.latestBlock ::
          WatcherCall.getNetVersionWithRetry ans.netVersion :: queryCalls c s latest ans) = [] := by
        simp
      by_cases hs : sentClaims (submitNewClaims addr fee ans latest dec).calls = []
      · simp only [hs, sentClaims_append, hsent, List.append_nil, ↓reduceIte]
      · simp only [hs, sentClaims_append, hsent, List.nil_append, ↓reduceIte,
          List.takeWhile_append_of_pos hpre]

/-- Whether `LOGGING` returns or panics, a run of `check_for_events` sends a claims message
only after one of its `sinfo!` returned. -/
theorem checkForEventsLogged_loggedBefore :
    LoggedBefore (·.claims.isSome) (checkForEventsLogged ok fromLogs c addr fee s ans).calls := by
  cases hsub : ans.latestBlock.sub (blockDelay ans.netVersion) with
  | none =>
    rw [checkForEventsLogged_of_underflow fromLogs c addr fee s ans ok
      (Uint256.sub_eq_none.1 hsub)]
    exact .of_forall (by simp)
  | some latest =>
    rw [checkForEventsLogged_of_sub fromLogs c addr fee s ans latest ok hsub]
    refine .map_call_append (fun x hx => by simp [claims_of_mem_queryRun c s ans hx]) ?_
    unfold processLogsLogged
    split
    · split
      · exact .of_forall (by simp)
      · exact submitNewClaimsLogged_loggedBefore addr fee ans latest _ ok
    · exact .of_forall (by simp)

/-- Whether `LOGGING` returns or panics, the adapter calls of `check_for_events` are a prefix of
the plain run's. -/
theorem checkForEventsLogged_erase_prefix_plain :
    (checkForEventsLogged ok fromLogs c addr fee s ans).erase.calls <+:
      (checkForEvents fromLogs c addr fee s ans).calls := by
  cases ok
  · rw [erase_checkForEventsLogged_false]
    split
    · exact List.prefix_refl _
    · exact List.takeWhile_prefix _
  · rw [erase_checkForEventsLogged_true]

end

end Peggy
