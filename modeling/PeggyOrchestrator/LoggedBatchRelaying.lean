import PeggyOrchestrator.BatchRelaying
import PeggyOrchestrator.JsonLogger
set_option autoImplicit false

/-!
`relay_batches` with its structured-log calls: the `swarn!` of lines 54-58 for each batch whose
signatures `order_sigs` rejects, the `sinfo!` of lines 115-122 before the submission and the one
of lines 137-140 after a failed submission. Everything else is `relayBatches`. With a log file
that opens, the logged run makes the plain run's adapter calls; with one that does not, it
never submits.
-/

namespace Peggy

section
variable (ok : Bool) (orderSigs : OrderSigs)
  (encodeTxBatchConfirmHashed : String → TransactionBatch → Hash) (currentValset : Valset)
  (ourEthereumAddress peggyContractAddress : EthAddress) (peggyId : String) (timeout : Nat)
  (ans : BatchAnswers)

/-- Lines 39-66 with the `swarn!` of lines 54-58; `ok` is whether `LOGGING` returns. -/
def selectBatchLogged : Nat → List TransactionBatch → Option TransactionBatch →
    Option (List Confirm) →
    Io (Logged BatchCall) (Option TransactionBatch × Option (List Confirm))
  | _, [], oldestSignedBatch, oldestSignatures => pure (oldestSignedBatch, oldestSignatures)
  | i, batch :: rest, oldestSignedBatch, oldestSignatures => do
    let sigs ← Io.adapter (.getTransactionBatchSignatures batch.nonce batch.tokenContract)
      (ans.signatures i)
    match sigs with
    | .ok sigs =>
      let hash := encodeTxBatchConfirmHashed peggyId batch
      match orderSigs currentValset hash sigs with
      | .ok _ => selectBatchLogged (i + 1) rest (some batch) (some sigs)
      | .error _ =>
        Io.slog ok "BATCH_CAN_NOT_BE_SUBMITTED_YET"
        selectBatchLogged (i + 1) rest oldestSignedBatch oldestSignatures
    | .error _ => selectBatchLogged (i + 1) rest oldestSignedBatch oldestSignatures

/-- Lines 67-142 with the `sinfo!` of lines 115-122 and 137-140. The cost is unwrapped for the
`info!` of lines 107-114 before `LOGGING` is forced. -/
def relaySelectedLogged (oldestSignedBatch : Option TransactionBatch)
    (oldestSignatures : Option (List Confirm)) : Io (Logged BatchCall) Unit := do
  let some oldestSignedBatch := oldestSignedBatch | return ()
  let some oldestSignatures := oldestSignatures | Io.panic
  let erc20Contract := oldestSignedBatch.tokenContract
  let latestEthereumBatch ← Io.adapter
    (.getTxBatchNonce peggyContractAddress erc20Contract ourEthereumAddress) ans.txBatchNonce
  match latestEthereumBatch with
  | .error _ => return ()
  | .ok latestEthereumBatch =>
    let latestCosmosBatchNonce := oldestSignedBatch.nonce
    if latestCosmosBatchNonce > latestEthereumBatch then
      let cost ← Io.adapter (.estimateTxBatchCost currentValset oldestSignedBatch oldestSignatures
        peggyContractAddress peggyId) ans.cost
      match cost with
      | .error _ => return ()
      | .ok cost =>
        let some total := cost.getTotal | Io.panic
        let some _ := downcastToU128 total | Io.panic
        Io.slog ok "WE_HAVE_DETECTED_LATEST_BATCH"
        let res ← Io.adapter (.sendEthTransactionBatch currentValset oldestSignedBatch
          oldestSignatures timeout peggyContractAddress peggyId) ans.submit
        match res with
        | .error _ => Io.slog ok "BATCH_SUBMISSION_FAILED"
        | .ok () => return ()
    else return ()

def relayBatchesLogged : Io (Logged BatchCall) Unit := do
  let latestBatches ← Io.adapter .getLatestTransactionBatches ans.latestBatches
  match latestBatches with
  | .error _ => return ()
  | .ok latestBatches =>
    let (oldestSignedBatch, oldestSignatures) ← selectBatchLogged ok orderSigs
      encodeTxBatchConfirmHashed currentValset peggyId ans 0 latestBatches none none
    relaySelectedLogged ok currentValset ourEthereumAddress peggyContractAddress peggyId timeout
      ans oldestSignedBatch oldestSignatures

/-- Whether an iteration of the loop from the `i`-th on gets signatures that `order_sigs`
rejects, and so reaches the `swarn!` of lines 54-58. -/
def warnsFrom : Nat → List TransactionBatch → Bool
  | _, [] => false
  | i, batch :: rest =>
    (match ans.signatures i with
     | .ok sigs => !(orderSigs currentValset (encodeTxBatchConfirmHashed peggyId batch) sigs).isOk
     | .error _ => false) || warnsFrom (i + 1) rest

/-- Whether a run of `relay_batches` reaches the `swarn!` of lines 54-58. -/
def reachesBatchWarn : Bool :=
  match ans.latestBatches with
  | .ok batches => warnsFrom orderSigs encodeTxBatchConfirmHashed currentValset peggyId ans 0 batches
  | .error _ => false

end

section
variable (orderSigs : OrderSigs) (encodeTxBatchConfirmHashed : String → TransactionBatch → Hash)
  (currentValset : Valset) (ourEthereumAddress peggyContractAddress : EthAddress)
  (peggyId : String) (timeout : Nat) (ans : BatchAnswers)

theorem erase_selectBatchLogged (ok : Bool) (i : Nat) (batches : List TransactionBatch)
    (b : Option TransactionBatch) (s : Option (List Confirm))
    (h : (ok || !warnsFrom orderSigs encodeTxBatchConfirmHashed currentValset peggyId ans i
      batches) = true) :
    (selectBatchLogged ok orderSigs encodeTxBatchConfirmHashed currentValset peggyId ans i batches
        b s).erase =
      selectBatch orderSigs encodeTxBatchConfirmHashed currentValset peggyId ans i batches b s := by
  induction batches generalizing i b s with
  | nil => rfl
  | cons x rest ih =>
    simp only [selectBatchLogged, selectBatch, Io.erase_adapter_bind, Io.call_bind]
    simp only [warnsFrom, Bool.not_or] at h
    cases hs : ans.signatures i with
    | error e =>
      simp only [hs, Bool.not_false, Bool.true_and] at h
      simp only [ih _ _ _ h]
    | ok sigs =>
      cases ho : orderSigs currentValset (encodeTxBatchConfirmHashed peggyId x) sigs with
      | ok out =>
        simp only [hs, ho, Except.isOk, Except.toBool, Bool.not_true, Bool.not_false,
          Bool.true_and] at h
        simp only [ho, ih _ _ _ h]
      | error e =>
        cases ok
        · simp [hs, ho, Except.isOk, Except.toBool] at h
        · simp only [ho, Io.erase_slog_true_bind, ih _ _ _ rfl]

theorem selectBatchLogged_false_of_warnsFrom (i : Nat) (batches : List TransactionBatch)
    (b : Option TransactionBatch) (s : Option (List Confirm))
    (h : warnsFrom orderSigs encodeTxBatchConfirmHashed currentValset peggyId ans i batches = true) :
    (selectBatchLogged false orderSigs encodeTxBatchConfirmHashed currentValset peggyId ans i
        batches b s).erase.ret = none ∧
      (selectBatchLogged false orderSigs encodeTxBatchConfirmHashed currentValset peggyId ans i
        batches b s).erase.calls <+: sigCalls ans i batches := by
  induction batches generalizing i b s with
  | nil => cases h
  | cons x rest ih =>
    simp only [selectBatchLogged, Io.erase_adapter_bind, Io.call_bind, sigCalls,
      List.prefix_cons_inj]
    simp only [warnsFrom] at h
    cases hs : ans.signatures i with
    | error e =>
      simp only [hs, Bool.false_or] at h
      exact ih _ _ _ h
    | ok sigs =>
      cases ho : orderSigs currentValset (encodeTxBatchConfirmHashed peggyId x) sigs with
      | ok out =>
        simp only [hs, ho, Except.isOk, Except.toBool, Bool.not_true, Bool.false_or] at h
        simpa only [ho] using ih _ _ _ h
      | error e => simp [ho]

theorem selectBatchLogged_erase_prefix_sigCalls (ok : Bool) (i : Nat) (batches : List TransactionBatch)
    (b : Option TransactionBatch) (s : Option (List Confirm)) :
    (selectBatchLogged ok orderSigs encodeTxBatchConfirmHashed currentValset peggyId ans i batches
      b s).erase.calls <+: sigCalls ans i batches := by
  cases hw : (ok || !warnsFrom orderSigs encodeTxBatchConfirmHashed currentValset peggyId ans i
    batches)
  · obtain ⟨rfl, hwarn⟩ : ok = false ∧ warnsFrom orderSigs encodeTxBatchConfirmHashed
        currentValset peggyId ans i batches = true := by simpa using hw
    exact (selectBatchLogged_false_of_warnsFrom orderSigs encodeTxBatchConfirmHashed currentValset
      peggyId ans i batches b s hwarn).2
  · obtain ⟨r, hr, -⟩ :=
      selectBatch_spec orderSigs encodeTxBatchConfirmHashed currentValset peggyId ans i batches b s
    rw [erase_selectBatchLogged orderSigs encodeTxBatchConfirmHashed currentValset peggyId ans ok
      i batches b s hw, hr]

theorem erase_relaySelectedLogged (ok : Bool) (o : Option TransactionBatch)
    (s : Option (List Confirm)) :
    (relaySelectedLogged ok currentValset ourEthereumAddress peggyContractAddress peggyId timeout
        ans o s).erase =
      if (!ok && (relaySelected currentValset ourEthereumAddress peggyContractAddress peggyId
          timeout ans o s).calls.any BatchCall.isSend) = true then
        ⟨(relaySelected currentValset ourEthereumAddress peggyContractAddress peggyId timeout ans
          o s).calls.takeWhile (!·.isSend), none⟩
      else relaySelected currentValset ourEthereumAddress peggyContractAddress peggyId timeout
        ans o s := by
  rcases o with _ | batch
  · cases ok <;> rfl
  rcases s with _ | sigs
  · cases ok <;> rfl
  simp only [relaySelectedLogged, relaySelected, Io.erase_adapter_bind, Io.call_bind]
  cases ans.txBatchNonce with
  | error e => cases ok <;> rfl
  | ok n =>
    by_cases hlt : n < batch.nonce
    · simp only [gt_iff_lt, hlt, ↓reduceIte, Io.erase_adapter_bind, Io.call_bind]
      cases ans.cost with
      | error e => cases ok <;> rfl
      | ok cost =>
        dsimp only
        cases cost.getTotal with
        | none => cases ok <;> rfl
        | some t =>
          dsimp only
          cases downcastToU128 t with
          | none => cases ok <;> rfl
          | some v => cases ok <;> cases ans.submit <;> rfl
    · simp only [gt_iff_lt, hlt, ↓reduceIte]
      cases ok <;> rfl

theorem relaySelectedLogged_loggedBefore (ok : Bool) (o : Option TransactionBatch)
    (s : Option (List Confirm)) :
    LoggedBefore (·.isSend) (relaySelectedLogged ok currentValset ourEthereumAddress
      peggyContractAddress peggyId timeout ans o s).calls := by
  rcases o with _ | batch
  · exact .of_forall (by simp [relaySelectedLogged])
  rcases s with _ | sigs
  · exact .of_forall (by simp [relaySelectedLogged])
  simp only [relaySelectedLogged, Io.adapter_bind]
  refine .call_cons rfl ?_
  split
  · exact .of_forall (by simp)
  split
  · simp only [Io.adapter_bind]
    refine .call_cons rfl ?_
    split
    · exact .of_forall (by simp)
    split
    · split
      · cases ok
        · exact .of_forall (by simp)
        · exact .returned_cons _ _
      · exact .of_forall (by simp)
    · exact .of_forall (by simp)
  · exact .of_forall (by simp)


/-- With `LOGGING` returning, `relay_batches` makes the plain run's adapter calls and returns its
result. -/
theorem erase_relayBatchesLogged_true :
    (relayBatchesLogged true orderSigs encodeTxBatchConfirmHashed currentValset ourEthereumAddress
        peggyContractAddress peggyId timeout ans).erase =
      relayBatches orderSigs encodeTxBatchConfirmHashed currentValset ourEthereumAddress
        peggyContractAddress peggyId timeout ans := by
  simp only [relayBatchesLogged, relayBatches, Io.erase_adapter_bind]
  congr 1; funext x
  cases x with
  | error e => rfl
  | ok bs =>
    dsimp only
    rw [Io.erase_bind, erase_selectBatchLogged orderSigs encodeTxBatchConfirmHashed currentValset
      peggyId ans true 0 bs none none rfl]
    congr 1; funext r
    rw [erase_relaySelectedLogged]
    rfl

/-- Whether `LOGGING` returns or panics, `relay_batches` submits a batch only after an `sinfo!`
returned. -/
theorem relayBatchesLogged_loggedBefore (ok : Bool) :
    LoggedBefore (·.isSend) (relayBatchesLogged ok orderSigs encodeTxBatchConfirmHashed
      currentValset ourEthereumAddress peggyContractAddress peggyId timeout ans).calls := by
  simp only [relayBatchesLogged, Io.adapter_bind]
  refine .call_cons rfl ?_
  split
  · exact .of_forall (by simp)
  · refine .bind (fun c hc => ?_) fun r => relaySelectedLogged_loggedBefore currentValset
      ourEthereumAddress peggyContractAddress peggyId timeout ans ok r.1 r.2
    obtain ⟨_, _, _, rfl⟩ := mem_sigCalls ans ((selectBatchLogged_erase_prefix_sigCalls orderSigs
      encodeTxBatchConfirmHashed currentValset peggyId ans ok 0 _ none none).subset hc)
    rfl

@[simp] theorem BatchCall.isSend_getLatestTransactionBatches
    (x : Except PeggyError (List TransactionBatch)) :
    (BatchCall.getLatestTransactionBatches x).isSend = false := rfl

theorem any_isSend_sigCalls (i : Nat) (batches : List TransactionBatch) :
    (sigCalls ans i batches).any BatchCall.isSend = false := by
  induction batches generalizing i <;> simp [sigCalls, BatchCall.isSend, *]

theorem isSend_of_mem_run (bs : List TransactionBatch) (rest : List BatchCall)
    (h : ∀ c ∈ rest, c.isSend = false) :
    ∀ c ∈ BatchCall.getLatestTransactionBatches (.ok bs) :: (sigCalls ans 0 bs ++ rest),
      c.isSend = false := by
  simp only [List.mem_cons, List.mem_append]
  rintro c (rfl | hc | hc)
  · rfl
  · obtain ⟨_, _, _, rfl⟩ := mem_sigCalls ans hc
    rfl
  · exact h c hc

/-- With `LOGGING` panicking, `relay_batches` never submits. It panics, having made a prefix of
the plain run's adapter calls, when the plain run reaches the `swarn!` of lines 54-58 or a
submission; otherwise it is the plain run. -/
theorem erase_relayBatchesLogged_false :
    (∀ c ∈ (relayBatchesLogged false orderSigs encodeTxBatchConfirmHashed currentValset
        ourEthereumAddress peggyContractAddress peggyId timeout ans).erase.calls, c.isSend = false) ∧
      if (reachesBatchWarn orderSigs encodeTxBatchConfirmHashed currentValset peggyId ans ||
          (relayBatches orderSigs encodeTxBatchConfirmHashed currentValset ourEthereumAddress
            peggyContractAddress peggyId timeout ans).calls.any BatchCall.isSend) = true then
        (relayBatchesLogged false orderSigs encodeTxBatchConfirmHashed currentValset
            ourEthereumAddress peggyContractAddress peggyId timeout ans).erase.ret = none ∧
          (relayBatchesLogged false orderSigs encodeTxBatchConfirmHashed currentValset
            ourEthereumAddress peggyContractAddress peggyId timeout ans).erase.calls <+:
            (relayBatches orderSigs encodeTxBatchConfirmHashed currentValset ourEthereumAddress
              peggyContractAddress peggyId timeout ans).calls
      else
        (relayBatchesLogged false orderSigs encodeTxBatchConfirmHashed currentValset
            ourEthereumAddress peggyContractAddress peggyId timeout ans).erase =
          relayBatches orderSigs encodeTxBatchConfirmHashed currentValset ourEthereumAddress
            peggyContractAddress peggyId timeout ans := by
  cases hl : ans.latestBatches with
  | error e => simp [relayBatchesLogged, relayBatches, reachesBatchWarn, hl]
  | ok bs =>
    obtain ⟨⟨b₀, s₀⟩, hr, -⟩ := selectBatch_spec orderSigs encodeTxBatchConfirmHashed
      currentValset peggyId ans 0 bs none none
    simp only [relayBatchesLogged, relayBatches, reachesBatchWarn, hl, Io.erase_adapter_bind,
      Io.call_bind, hr, Io.mk_some_bind]
    rw [Io.erase_bind]
    by_cases hw : warnsFrom orderSigs encodeTxBatchConfirmHashed currentValset peggyId ans 0 bs
    · obtain ⟨hret, hpre⟩ := selectBatchLogged_false_of_warnsFrom orderSigs
        encodeTxBatchConfirmHashed currentValset peggyId ans 0 bs none none hw
      rw [Io.bind_of_ret_eq_none _ hret]
      simp only [hw, Bool.true_or, ↓reduceIte, List.prefix_cons_inj]
      refine ⟨fun c hc => isSend_of_mem_run ans bs [] (fun _ h => nomatch h) c ?_, trivial,
        hpre.trans (List.prefix_append _ _)⟩
      exact List.cons_subset_cons _ (hpre.subset.trans (List.subset_append_left _ _)) hc
    · rw [erase_selectBatchLogged orderSigs encodeTxBatchConfirmHashed currentValset peggyId ans
        false 0 bs none none (by simpa using hw), hr, Io.mk_some_bind, erase_relaySelectedLogged]
      simp only [hw, List.any_cons, List.any_append, any_isSend_sigCalls, Bool.false_or,
        Bool.not_false, Bool.true_and, BatchCall.isSend_getLatestTransactionBatches]
      split
      · refine ⟨isSend_of_mem_run ans bs _ fun c hc => ?_, rfl, (List.prefix_cons_inj _).2
          ((List.prefix_append_right_inj _).2 (List.takeWhile_prefix _))⟩
        simpa using List.mem_takeWhile_imp hc
      · rename_i hsend
        exact ⟨isSend_of_mem_run ans bs _ fun c hc =>
          Bool.eq_false_iff.2 (List.any_eq_false.1 (Bool.eq_false_iff.2 hsend) c hc), rfl⟩

/-- Whether `LOGGING` returns or panics, the adapter calls of `relay_batches` are a prefix of the
plain run's. -/
theorem relayBatchesLogged_erase_prefix_plain (ok : Bool) :
    (relayBatchesLogged ok orderSigs encodeTxBatchConfirmHashed currentValset ourEthereumAddress
        peggyContractAddress peggyId timeout ans).erase.calls <+:
      (relayBatches orderSigs encodeTxBatchConfirmHashed currentValset ourEthereumAddress
        peggyContractAddress peggyId timeout ans).calls := by
  cases ok
  · have h := (erase_relayBatchesLogged_false orderSigs encodeTxBatchConfirmHashed currentValset
      ourEthereumAddress peggyContractAddress peggyId timeout ans).2
    split at h
    · exact h.2
    · rw [h]
  · rw [erase_relayBatchesLogged_true]

end

end Peggy
