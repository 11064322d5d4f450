import PeggyOrchestrator.LoggedWatcher
import PeggyOrchestrator.LoggedBatchRelaying
import PeggyOrchestrator.LoggedValsetUpdate
set_option autoImplicit false

/-!
The orchestrator process: tasks that each run `check_for_events`, `relay_batches` or
`send_eth_valset_update`, their steps interleaved in any order, and every structured-log call
of every task forcing the one `LOGGING`. The loops that spawn the tasks are not in this
repository's sources, so a task is one run of one of the three functions, with any inputs and
answers, cut wherever the process is observed.
-/

namespace Peggy

inductive OrchestratorCall where
  | watcher (c : WatcherCall)
  | batchRelayer (c : BatchCall)
  | valsetRelayer (c : ValsetCall)

/-- Whether the call broadcasts: claims to Cosmos, or a batch or a validator set to Ethereum. -/
def OrchestratorCall.broadcasts : OrchestratorCall → Bool
  | .watcher c => c.claims.isSome
  | .batchRelayer c => c.isSend
  | .valsetRelayer c => c.isSend

namespace Logged

variable {C D : Type}

def map (f : C → D) : Logged C → Logged D
  | call c => call (f c)
  | slog t r => slog t r

@[simp] theorem returnedSlog_map (f : C → D) (e : Logged C) :
    (e.map f).returnedSlog = e.returnedSlog := by
  cases e <;> rfl

end Logged

theorem LoggedBefore.map {C D : Type} {bad : D → Bool} {f : C → D} {steps : List (Logged C)}
    (h : LoggedBefore (bad ∘ f) steps) : LoggedBefore bad (steps.map (Logged.map f)) := by
  intro c hc
  have hp : ((fun e : Logged D => !e.returnedSlog) ∘ Logged.map f) = fun e => !e.returnedSlog :=
    funext fun e => by simp
  rw [List.takeWhile_map, hp] at hc
  obtain ⟨e, he, hec⟩ := List.mem_map.1 hc
  cases e with
  | call c' =>
    cases hec
    exact h c' he
  | slog => cases hec

/-- The steps of one task so far: a prefix of a run of one of the three functions, for some
inputs and answers, with `LOGGING` returning or panicking. -/
inductive TaskRun : List (Logged OrchestratorCall) → Prop
  | watcher {steps : List (Logged OrchestratorCall)} (ok : Bool)
      (fromLogs : EventKind → List Log → Except PeggyError (List Event))
      (peggyContractAddress : EthAddress) (ourCosmosAddress : CosmosAddress) (fee : Coin)
      (startingBlock : Uint256) (ans : WatcherAnswers)
      (h : steps <+: (checkForEventsLogged ok fromLogs peggyContractAddress ourCosmosAddress fee
        startingBlock ans).calls.map (.map .watcher)) : TaskRun steps
  | batchRelayer {steps : List (Logged OrchestratorCall)} (ok : Bool) (orderSigs : OrderSigs)
      (encodeTxBatchConfirmHashed : String → TransactionBatch → Hash) (currentValset : Valset)
      (ourEthereumAddress peggyContractAddress : EthAddress) (peggyId : String) (timeout : Nat)
      (ans : BatchAnswers)
      (h : steps <+: (relayBatchesLogged ok orderSigs encodeTxBatchConfirmHashed currentValset
        ourEthereumAddress peggyContractAddress peggyId timeout ans).calls.map
        (.map .batchRelayer)) : TaskRun steps
  | valsetRelayer {steps : List (Logged OrchestratorCall)} (ok : Bool) (orderSigs : OrderSigs)
      (encodeValsetConfirmHashed : String → Valset → Hash) (newValset oldValset : Valset)
      (confirms : List Confirm) (timeout : Nat) (peggyContractAddress : EthAddress)
      (peggyId : String) (ethAddress : EthAddress) (ans : ValsetAnswers)
      (h : steps <+: (sendEthValsetUpdateLogged ok orderSigs encodeValsetConfirmHashed newValset
        oldValset confirms timeout peggyContractAddress peggyId ethAddress ans).calls.map
        (.map .valsetRelayer)) : TaskRun steps

namespace TaskRun

variable {steps : List (Logged OrchestratorCall)}

/-- A task's steps are a prefix of a run that broadcasts only after a structured-log call
returned. -/
theorem loggedBefore (h : TaskRun steps) :
    ∃ run, steps <+: run ∧ LoggedBefore OrchestratorCall.broadcasts run := by
  cases h with
  | watcher ok fromLogs c addr fee s ans h =>
    exact ⟨_, h, .map (checkForEventsLogged_loggedBefore fromLogs c addr fee s ans ok)⟩
  | batchRelayer ok orderSigs enc valset ours addr peggyId timeout ans h =>
    exact ⟨_, h, .map (relayBatchesLogged_loggedBefore orderSigs enc valset ours addr peggyId
      timeout ans ok)⟩
  | valsetRelayer ok orderSigs enc new old confirms timeout addr peggyId eth ans h =>
    exact ⟨_, h, .map (sendEthValsetUpdateLogged_loggedBefore orderSigs enc new old confirms
      timeout addr peggyId eth ans ok)⟩

theorem not_broadcasts (h : TaskRun steps) (hno : ∀ e ∈ steps, e.returnedSlog = false) :
    ∀ c, .call c ∈ steps → c.broadcasts = false := by
  obtain ⟨run, hp, hb⟩ := h.loggedBefore
  exact hb.not_bad_of_prefix hp hno

end TaskRun

/-- A run of the process from `LOGGING` in state `s₀` to state `s`: the steps it made in order,
each with the task that made it. A structured-log call forces `LOGGING` and gets its answer;
an adapter call leaves `LOGGING` as it is. -/
inductive ProcessRun (s₀ : LoggerState) :
    LoggerState → List (Nat × Logged OrchestratorCall) → Prop
  | nil : ProcessRun s₀ s₀ []
  | call {s : LoggerState} {tr : List (Nat × Logged OrchestratorCall)} (task : Nat)
      (c : OrchestratorCall) : ProcessRun s₀ s tr → ProcessRun s₀ s (tr ++ [(task, .call c)])
  | slog {s : LoggerState} {tr : List (Nat × Logged OrchestratorCall)} (task : Nat)
      (tag : String) :
      ProcessRun s₀ s tr → ProcessRun s₀ s.force.1 (tr ++ [(task, .slog tag s.returns)])

def taskSteps (k : Nat) (tr : List (Nat × Logged OrchestratorCall)) :
    List (Logged OrchestratorCall) :=
  tr.filterMap fun p => if p.1 = k then some p.2 else none

@[simp] theorem mem_taskSteps {k : Nat} {tr : List (Nat × Logged OrchestratorCall)}
    {e : Logged OrchestratorCall} : e ∈ taskSteps k tr ↔ (k, e) ∈ tr := by
  simp only [taskSteps, List.mem_filterMap, Option.ite_none_right_eq_some, Option.some.injEq]
  constructor
  · rintro ⟨⟨k', e'⟩, hp, rfl, rfl⟩
    exact hp
  · exact fun hp => ⟨_, hp, rfl, rfl⟩

/-- An execution of the orchestrator from `LOGGING` in state `s₀`: the steps follow `LOGGING`,
and each task's steps are a prefix of a run of its function. -/
structure Execution (s₀ : LoggerState) (tr : List (Nat × Logged OrchestratorCall)) : Prop where
  logging : ∃ s, ProcessRun s₀ s tr
  tasks : ∀ k ∈ tr.map Prod.fst, TaskRun (taskSteps k tr)

@[simp] theorem LoggerState.force_force (s : LoggerState) : s.force.1.force.1 = s.force.1 := by
  rcases s with ⟨_ | _⟩ | _ | _ <;> rfl

theorem LoggerState.returns_of_reached {s₀ s : LoggerState} (h : s = s₀ ∨ s = s₀.force.1) :
    s.returns = s₀.returns := by
  rcases h with rfl | rfl <;> simp

namespace ProcessRun

variable {s₀ s : LoggerState} {tr : List (Nat × Logged OrchestratorCall)}

/-- `LOGGING` changes at most once, so its initialiser runs at most once: after any run it is in
its first state or in the state the first access left it in. -/
theorem reached (h : ProcessRun s₀ s tr) : s = s₀ ∨ s = s₀.force.1 := by
  induction h with
  | nil => exact .inl rfl
  | call _ _ _ ih => exact ih
  | slog _ _ _ ih => rcases ih with rfl | rfl <;> simp

/-- Every structured-log call of a run got the answer the first access gets. -/
theorem slog_returned (h : ProcessRun s₀ s tr) :
    ∀ p ∈ tr, ∀ t r, p.2 = .slog t r → r = s₀.returns := by
  induction h with
  | nil => simp
  | call _ _ _ ih =>
    simp only [List.mem_append, List.mem_singleton]
    rintro p (hp | rfl) t r he
    · exact ih p hp t r he
    · cases he
  | slog _ _ hrun ih =>
    simp only [List.mem_append, List.mem_singleton]
    rintro p (hp | rfl) t r he
    · exact ih p hp t r he
    · cases he
      exact LoggerState.returns_of_reached hrun.reached

end ProcessRun

/-- In a process whose log file cannot be opened, no task ever broadcasts: no claims reach
Cosmos and no batch or validator set reaches Ethereum, whatever the tasks, their inputs, the
chains' answers and the interleaving. -/
theorem no_broadcast_without_log_file {ts : Int} {pid : Nat} {canOpen : String → Bool}
    {tr : List (Nat × Logged OrchestratorCall)}
    (h : Execution (.initial ts pid canOpen) tr) (hfail : canOpen (logfile ts pid) = false) :
    ∀ p ∈ tr, ∀ c, p.2 = .call c → c.broadcasts = false := by
  obtain ⟨s, hrun⟩ := h.logging
  rintro ⟨k, e⟩ hp c rfl
  refine (h.tasks k (List.mem_map_of_mem _ hp)).not_broadcasts (fun e he => ?_) c
    (mem_taskSteps.2 hp)
  cases e with
  | call c' => rfl
  | slog t r =>
    have := hrun.slog_returned _ (mem_taskSteps.1 he) t r rfl
    simpa [hfail] using this

/-- With a log file that cannot be opened: the watcher runs as the plain function until it has
claims to submit, and panics right before submitting them; the batch relayer never submits,
panics when the plain run would reach the `swarn!` of lines 54-58 or a submission, and is
otherwise the plain run, its own panic on a cost that does not fit a `u128` included; the
valset relayer panics before its first adapter call. -/
theorem logged_runs_without_log_file :
    (∀ fromLogs peggyContractAddress ourCosmosAddress fee startingBlock ans,
      (checkForEventsLogged false fromLogs peggyContractAddress ourCosmosAddress fee startingBlock
        ans).erase =
        if sentClaims (checkForEvents fromLogs peggyContractAddress ourCosmosAddress fee
            startingBlock ans).calls = [] then
          checkForEvents fromLogs peggyContractAddress ourCosmosAddress fee startingBlock ans
        else ⟨(checkForEvents fromLogs peggyContractAddress ourCosmosAddress fee startingBlock
          ans).calls.takeWhile (·.claims.isNone), none⟩) ∧
    (∀ orderSigs encodeTxBatchConfirmHashed currentValset ourEthereumAddress peggyContractAddress
        peggyId timeout ans,
      let plain := relayBatches orderSigs encodeTxBatchConfirmHashed currentValset
        ourEthereumAddress peggyContractAddress peggyId timeout ans
      let run := (relayBatchesLogged false orderSigs encodeTxBatchConfirmHashed currentValset
        ourEthereumAddress peggyContractAddress peggyId timeout ans).erase
      (∀ c ∈ run.calls, c.isSend = false) ∧
        if (reachesBatchWarn orderSigs encodeTxBatchConfirmHashed currentValset peggyId ans ||
            plain.calls.any BatchCall.isSend) = true then
          run.ret = none ∧ run.calls <+: plain.calls
        else run = plain) ∧
    (∀ orderSigs encodeValsetConfirmHashed newValset oldValset confirms timeout
        peggyContractAddress peggyId ethAddress ans,
      (sendEthValsetUpdateLogged false orderSigs encodeValsetConfirmHashed newValset oldValset
        confirms timeout peggyContractAddress peggyId ethAddress ans).erase = ⟨[], none⟩) :=
  ⟨erase_checkForEventsLogged_false, erase_relayBatchesLogged_false,
    erase_sendEthValsetUpdateLogged_false⟩

/-- The valset relayer's first `sinfo!` finds no log file and poisons `LOGGING`; the batch
relayer then checks and estimates batch 7 of token 9, which it would submit, and panics at the
`sinfo!` before the submission. -/
def noLogFileTrace : List (Nat × Logged OrchestratorCall) :=
  [(1, .call (.batchRelayer (.getLatestTransactionBatches (.ok [batchOf 9 5, batchOf 9 7])))),
   (0, .slog "ORDERING_SIGNATURES_AND_SUBMITTING_VALIDATOR" false),
   (1, .call (.batchRelayer (.getTransactionBatchSignatures 5 9 (.ok [confirmOf (batchOf 9 5)])))),
   (1, .call (.batchRelayer (.getTransactionBatchSignatures 7 9 (.ok [confirmOf (batchOf 9 7)])))),
   (1, .call (.batchRelayer (.getTxBatchNonce 0 9 0 (.ok 3)))),
   (1, .call (.batchRelayer (.estimateTxBatchCost soloValset (batchOf 9 7)
     [confirmOf (batchOf 9 7)] 0 "" (.ok smallCost)))),
   (1, .slog "WE_HAVE_DETECTED_LATEST_BATCH" false)]

theorem noLogFileTrace_execution : Execution (.initial 0 1 fun _ => false) noLogFileTrace where
  logging := ⟨_, .slog 1 _ (.call 1 _ (.call 1 _ (.call 1 _ (.call 1 _ (.slog 0 _
    (.call 1 _ .nil))))))⟩
  tasks := by
    intro k hk
    obtain rfl | rfl : k = 1 ∨ k = 0 := by simp [noLogFileTrace] at hk; omega
    · exact .batchRelayer false soloOrderSigs nonceHash soloValset 0 0 "" 0 sameTokenAnswers
        ⟨[], rfl⟩
    · exact .valsetRelayer false soloOrderSigs valsetNonceHash nextValset gappedValset [] 0 0 ""
        0 ⟨.ok 1, .ok 0, .ok (), .ok 2⟩ ⟨[], rfl⟩

theorem noLogFileTrace_broadcasts_nothing :
    Execution (.initial 0 1 fun _ => false) noLogFileTrace ∧
      (fun _ => false : String → Bool) (logfile 0 1) = false ∧
      ∀ p ∈ noLogFileTrace, ∀ c, p.2 = .call c → c.broadcasts = false :=
  ⟨noLogFileTrace_execution, rfl, no_broadcast_without_log_file noLogFileTrace_execution rfl⟩

end Peggy
