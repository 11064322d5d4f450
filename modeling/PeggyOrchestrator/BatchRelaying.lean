import PeggyOrchestrator.Io
import PeggyOrchestrator.PeggyUtils
set_option autoImplicit false

/-!
`relayer/src/batch_relaying.rs`: one cycle of the batch relayer, `relay_batches`. It picks
one batch whose signatures `order_sigs` accepts, checks it against the contract's last batch
nonce for its token, logs its cost and submits it.
-/

namespace Peggy

/-- The adapter calls of `relay_batches`, each with its arguments and its answer. -/
inductive BatchCall where
  | getLatestTransactionBatches (batches : Except PeggyError (List TransactionBatch))
  | getTransactionBatchSignatures (nonce : Nat) (tokenContract : EthAddress)
      (sigs : Except PeggyError (List Confirm))
  | getTxBatchNonce (peggyContractAddress erc20Contract caller : EthAddress)
      (nonce : Except PeggyError Nat)
  | estimateTxBatchCost (valset : Valset) (batch : TransactionBatch) (sigs : List Confirm)
      (peggyContractAddress : EthAddress) (peggyId : String) (cost : Except PeggyError GasCost)
  | sendEthTransactionBatch (valset : Valset) (batch : TransactionBatch) (sigs : List Confirm)
      (timeout : Nat) (peggyContractAddress : EthAddress) (peggyId : String)
      (res : Except PeggyError Unit)

/-- The valset, batch, signatures and `peggy_id` a cost estimate or a submission is made with. -/
def BatchCall.payload : BatchCall → Option (Valset × TransactionBatch × List Confirm × String)
  | .estimateTxBatchCost valset batch sigs _ peggyId _ => some (valset, batch, sigs, peggyId)
  | .sendEthTransactionBatch valset batch sigs _ _ peggyId _ => some (valset, batch, sigs, peggyId)
  | _ => none

def BatchCall.isSend : BatchCall → Bool
  | .sendEthTransactionBatch .. => true
  | _ => false

/-- What the adapter calls of one `relay_batches` run answer; `signatures i` answers the
`i`-th call of `get_transaction_batch_signatures`. -/
structure BatchAnswers where
  latestBatches : Except PeggyError (List TransactionBatch)
  signatures : Nat → Except PeggyError (List Confirm)
  txBatchNonce : Except PeggyError Nat
  cost : Except PeggyError GasCost
  submit : Except PeggyError Unit

section
variable (orderSigs : OrderSigs) (encodeTxBatchConfirmHashed : String → TransactionBatch → Hash)
  (currentValset : Valset) (ourEthereumAddress peggyContractAddress : EthAddress)
  (peggyId : String) (timeout : Nat) (ans : BatchAnswers)

/-- The loop of lines 39-66 from its `i`-th iteration on: it keeps the last batch whose
signatures `order_sigs` accepts, with those signatures. -/
def selectBatch : Nat → List TransactionBatch → Option TransactionBatch →
    Option (List Confirm) → Io BatchCall (Option TransactionBatch × Option (List Confirm))
  | _, [], oldestSignedBatch, oldestSignatures => pure (oldestSignedBatch, oldestSignatures)
  | i, batch :: rest, oldestSignedBatch, oldestSignatures => do
    let sigs ← Io.call (.getTransactionBatchSignatures batch.nonce batch.tokenContract)
      (ans.signatures i)
    match sigs with
    | .ok sigs =>
      let hash := encodeTxBatchConfirmHashed peggyId batch
      match orderSigs currentValset hash sigs with
      | .ok _ => selectBatch (i + 1) rest (some batch) (some sigs)
      | .error _ => selectBatch (i + 1) rest oldestSignedBatch oldestSignatures
    | .error _ => selectBatch (i + 1) rest oldestSignedBatch oldestSignatures

/-- Lines 67-142: check the selected batch against the contract, log its cost and submit it.
The cost is logged through `downcast_to_u128(cost.get_total()).unwrap()`. -/
def relaySelected (oldestSignedBatch : Option TransactionBatch)
    (oldestSignatures : Option (List Confirm)) : Io BatchCall Unit := do
  let some oldestSignedBatch := oldestSignedBatch | return ()
  let some oldestSignatures := oldestSignatures | Io.panic
  let erc20Contract := oldestSignedBatch.tokenContract
  let latestEthereumBatch ← Io.call
    (.getTxBatchNonce peggyContractAddress erc20Contract ourEthereumAddress) ans.txBatchNonce
  match latestEthereumBatch with
  | .error _ => return ()
  | .ok latestEthereumBatch =>
    let latestCosmosBatchNonce := oldestSignedBatch.nonce
    if latestCosmosBatchNonce > latestEthereumBatch then
      let cost ← Io.call (.estimateTxBatchCost currentValset oldestSignedBatch oldestSignatures
        peggyContractAddress peggyId) ans.cost
      match cost with
      | .error _ => return ()
      | .ok cost =>
        let some total := cost.getTotal | Io.panic
        let some _ := downcastToU128 total | Io.panic
        let _ ← Io.call (.sendEthTransactionBatch currentValset oldestSignedBatch oldestSignatures
          timeout peggyContractAddress peggyId) ans.submit
        return ()
    else return ()

def relayBatches : Io BatchCall Unit := do
  let latestBatches ← Io.call .getLatestTransactionBatches ans.latestBatches
  match latestBatches with
  | .error _ => return ()
  | .ok latestBatches =>
    let (oldestSignedBatch, oldestSignatures) ← selectBatch orderSigs encodeTxBatchConfirmHashed
      currentValset peggyId ans 0 latestBatches none none
    relaySelected currentValset ourEthereumAddress peggyContractAddress peggyId timeout ans
      oldestSignedBatch oldestSignatures

def sigCalls : Nat → List TransactionBatch → List BatchCall
  | _, [] => []
  | i, batch :: rest =>
    .getTransactionBatchSignatures batch.nonce batch.tokenContract (ans.signatures i) ::
      sigCalls (i + 1) rest

theorem getElem?_sigCalls (i : Nat) (batches : List TransactionBatch) (j : Nat) :
    (sigCalls ans i batches)[j]? = batches[j]?.map fun b =>
      .getTransactionBatchSignatures b.nonce b.tokenContract (ans.signatures (i + j)) := by
  induction batches generalizing i j with
  | nil => rfl
  | cons b rest ih =>
    cases j with
    | zero => simp [sigCalls]
    | succ j => simp only [sigCalls, List.getElem?_cons_succ, ih]; rw [Nat.add_right_comm]; rfl

@[simp] theorem length_sigCalls (i : Nat) (batches : List TransactionBatch) :
    (sigCalls ans i batches).length = batches.length := by
  induction batches generalizing i <;> simp [sigCalls, *]

theorem mem_sigCalls {i : Nat} {batches : List TransactionBatch} {e : BatchCall}
    (h : e ∈ sigCalls ans i batches) : ∃ nonce token sigs, e = .getTransactionBatchSignatures nonce token sigs := by
  induction batches generalizing i with
  | nil => cases h
  | cons b rest ih =>
    rcases List.mem_cons.1 h with rfl | h
    · exact ⟨_, _, _, rfl⟩
    · exact ih h

/-- The `j`-th signature query answered `Ok sigs` and `order_sigs` accepts `sigs` for `batch`
(lines 43-46). -/
def SignedAt (j : Nat) (batch : TransactionBatch) (sigs : List Confirm) : Prop :=
  ans.signatures j = .ok sigs ∧
    ∃ out, orderSigs currentValset (encodeTxBatchConfirmHashed peggyId batch) sigs = .ok out

/-- What the loop ends with when it starts its `i`-th iteration on `batches` holding `oldest`:
the last batch whose signatures pass, with those signatures, or `oldest` when none passes. -/
def LastSigned (i : Nat) (batches : List TransactionBatch)
    (oldest r : Option TransactionBatch × Option (List Confirm)) : Prop :=
  (r = oldest ∧ ∀ j (h : j < batches.length) sigs,
      ¬ SignedAt orderSigs encodeTxBatchConfirmHashed currentValset peggyId ans (i + j) batches[j] sigs) ∨
  ∃ j, ∃ h : j < batches.length, ∃ sigs,
    SignedAt orderSigs encodeTxBatchConfirmHashed currentValset peggyId ans (i + j) batches[j] sigs ∧
    r = (some batches[j], some sigs) ∧
    ∀ j' (h' : j' < batches.length), j < j' → ∀ sigs',
      ¬ SignedAt orderSigs encodeTxBatchConfirmHashed currentValset peggyId ans (i + j') batches[j'] sigs'

section LastSigned
variable {orderSigs encodeTxBatchConfirmHashed currentValset peggyId ans}

theorem LastSigned.cons_skip {i : Nat} {b : TransactionBatch} {rest : List TransactionBatch}
    {oldest r : Option TransactionBatch × Option (List Confirm)}
    (hb : ∀ sigs, ¬ SignedAt orderSigs encodeTxBatchConfirmHashed currentValset peggyId ans i b sigs)
    (h : LastSigned orderSigs encodeTxBatchConfirmHashed currentValset peggyId ans (i + 1) rest oldest r) :
    LastSigned orderSigs encodeTxBatchConfirmHashed currentValset peggyId ans i (b :: rest) oldest r := by
  rcases h with ⟨rfl, hnone⟩ | ⟨j, hj, sigs, hs, rfl, hlast⟩
  · refine .inl ⟨rfl, fun j hj sigs => ?_⟩
    cases j with
    | zero => exact hb sigs
    | succ j => simpa only [Nat.add_right_comm] using hnone j (Nat.lt_of_succ_lt_succ hj) sigs
  · refine .inr ⟨j + 1, Nat.succ_lt_succ hj, sigs, by simpa only [Nat.add_right_comm] using hs, rfl,
      fun j' hj' hlt sigs' => ?_⟩
    obtain ⟨j', rfl⟩ : ∃ k, j' = k + 1 := ⟨j' - 1, by omega⟩
    simpa only [Nat.add_right_comm] using hlast j' (Nat.lt_of_succ_lt_succ hj') (by omega) sigs'

theorem LastSigned.cons_signed {i : Nat} {b : TransactionBatch} {rest : List TransactionBatch}
    {sigs : List Confirm} {oldest r : Option TransactionBatch × Option (List Confirm)}
    (hb : SignedAt orderSigs encodeTxBatchConfirmHashed currentValset peggyId ans i b sigs)
    (h : LastSigned orderSigs encodeTxBatchConfirmHashed currentValset peggyId ans (i + 1) rest
      (some b, some sigs) r) :
    LastSigned orderSigs encodeTxBatchConfirmHashed currentValset peggyId ans i (b :: rest) oldest r := by
  rcases h with ⟨rfl, hnone⟩ | ⟨j, hj, sigs, hs, rfl, hlast⟩
  · refine .inr ⟨0, Nat.succ_pos _, sigs, hb, rfl, fun j' hj' hlt sigs' => ?_⟩
    obtain ⟨j', rfl⟩ : ∃ k, j' = k + 1 := ⟨j' - 1, by omega⟩
    simpa only [Nat.add_right_comm] using hnone j' (Nat.lt_of_succ_lt_succ hj') sigs'
  · refine .inr ⟨j + 1, Nat.succ_lt_succ hj, sigs, by simpa only [Nat.add_right_comm] using hs, rfl,
      fun j' hj' hlt sigs' => ?_⟩
    obtain ⟨j', rfl⟩ : ∃ k, j' = k + 1 := ⟨j' - 1, by omega⟩
    simpa only [Nat.add_right_comm] using hlast j' (Nat.lt_of_succ_lt_succ hj') (by omega) sigs'

theorem SignedAt.last_unique {batches : List TransactionBatch} {j₁ j₂ : Nat}
    {h₁ : j₁ < batches.length} {h₂ : j₂ < batches.length} {sigs₁ sigs₂ : List Confirm}
    (hs₁ : SignedAt orderSigs encodeTxBatchConfirmHashed currentValset peggyId ans j₁ batches[j₁] sigs₁)
    (hl₁ : ∀ j' (h' : j' < batches.length), j₁ < j' → ∀ sigs',
      ¬ SignedAt orderSigs encodeTxBatchConfirmHashed currentValset peggyId ans j' batches[j'] sigs')
    (hs₂ : SignedAt orderSigs encodeTxBatchConfirmHashed currentValset peggyId ans j₂ batches[j₂] sigs₂)
    (hl₂ : ∀ j' (h' : j' < batches.length), j₂ < j' → ∀ sigs',
      ¬ SignedAt orderSigs encodeTxBatchConfirmHashed currentValset peggyId ans j' batches[j'] sigs') :
    j₁ = j₂ ∧ sigs₁ = sigs₂ := by
  obtain rfl : j₁ = j₂ := by
    rcases Nat.lt_trichotomy j₁ j₂ with h | h | h
    · exact absurd hs₂ (hl₁ j₂ h₂ h sigs₂)
    · exact h
    · exact absurd hs₁ (hl₂ j₁ h₁ h sigs₁)
  have := hs₁.1.symm.trans hs₂.1
  exact ⟨rfl, Except.ok.inj this⟩

end LastSigned

/-- The loop never panics, makes one signature query per batch and ends with the last batch
whose signatures pass. -/
theorem selectBatch_spec (i : Nat) (batches : List TransactionBatch) (b : Option TransactionBatch)
    (s : Option (List Confirm)) :
    ∃ r, selectBatch orderSigs encodeTxBatchConfirmHashed currentValset peggyId ans i batches b s =
        ⟨sigCalls ans i batches, some r⟩ ∧
      LastSigned orderSigs encodeTxBatchConfirmHashed currentValset peggyId ans i batches (b, s) r := by
  induction batches generalizing i b s with
  | nil => exact ⟨(b, s), rfl, .inl ⟨rfl, fun j h => absurd h (Nat.not_lt_zero j)⟩⟩
  | cons x rest ih =>
    simp only [selectBatch, Io.call_bind, sigCalls]
    cases hs : ans.signatures i with
    | error e =>
      obtain ⟨r, hr, hl⟩ := ih (i + 1) b s
      refine ⟨r, by rw [hr], hl.cons_skip fun sigs h => ?_⟩
      simp [SignedAt, hs] at h
    | ok sigs =>
      cases ho : orderSigs currentValset (encodeTxBatchConfirmHashed peggyId x) sigs with
      | error e =>
        obtain ⟨r, hr, hl⟩ := ih (i + 1) b s
        refine ⟨r, by simp only [ho, hr], hl.cons_skip fun sigs' h => ?_⟩
        obtain ⟨h1, out, h2⟩ := h
        simp only [hs, Except.ok.injEq] at h1
        subst h1
        simp [ho] at h2
      | ok out =>
        obtain ⟨r, hr, hl⟩ := ih (i + 1) (some x) (some sigs)
        exact ⟨r, by simp only [ho, hr], hl.cons_signed ⟨hs, out, ho⟩⟩

@[simp] theorem relaySelected_none (s : Option (List Confirm)) :
    relaySelected currentValset ourEthereumAddress peggyContractAddress peggyId timeout ans none s =
      ⟨[], some ()⟩ := rfl

/-- Everything lines 67-142 can do with a selected batch and its signatures: stop after the
nonce read, stop after a failed estimate, panic while logging the cost, or submit. -/
theorem relaySelected_cases (batch : TransactionBatch) (sigs : List Confirm) :
    let run := relaySelected currentValset ourEthereumAddress peggyContractAddress peggyId timeout ans
      (some batch) (some sigs)
    let nonceRead := BatchCall.getTxBatchNonce peggyContractAddress batch.tokenContract
      ourEthereumAddress ans.txBatchNonce
    let estimate := BatchCall.estimateTxBatchCost currentValset batch sigs peggyContractAddress
      peggyId ans.cost
    (run = ⟨[nonceRead], some ()⟩ ∧ ∀ n, ans.txBatchNonce = .ok n → batch.nonce ≤ n) ∨
    ∃ n, ans.txBatchNonce = .ok n ∧ n < batch.nonce ∧
      ((run = ⟨[nonceRead, estimate], some ()⟩ ∧ ∀ cost, ans.cost ≠ .ok cost) ∨
       ∃ cost, ans.cost = .ok cost ∧
        ((run = ⟨[nonceRead, estimate], none⟩ ∧ cost.getTotal.bind downcastToU128 = none) ∨
         (run = ⟨[nonceRead, estimate, .sendEthTransactionBatch currentValset batch sigs timeout
            peggyContractAddress peggyId ans.submit], some ()⟩ ∧
          cost.getTotal.bind downcastToU128 ≠ none))) := by
  simp only [relaySelected, Io.call_bind]
  cases hn : ans.txBatchNonce with
  | error e => exact .inl ⟨rfl, fun _ h => nomatch h⟩
  | ok n =>
    by_cases hlt : n < batch.nonce
    · simp only [gt_iff_lt, hlt, ↓reduceIte]
      refine .inr ⟨n, rfl, hlt, ?_⟩
      cases hc : ans.cost with
      | error e => exact .inl ⟨rfl, fun _ h => nomatch h⟩
      | ok cost =>
        refine .inr ⟨cost, rfl, ?_⟩
        dsimp only
        cases ht : cost.getTotal with
        | none => exact .inl ⟨rfl, rfl⟩
        | some t =>
          dsimp only
          cases hd : downcastToU128 t with
          | none => exact .inl ⟨rfl, hd⟩
          | some v => exact .inr ⟨rfl, fun h => Option.some_ne_none v (hd.symm.trans h)⟩
    · simp only [gt_iff_lt, hlt, ↓reduceIte]
      exact .inl ⟨rfl, fun m h => by cases h; omega⟩

section Selected
variable (batch : TransactionBatch) (sigs : List Confirm)

theorem head?_relaySelected :
    (relaySelected currentValset ourEthereumAddress peggyContractAddress peggyId timeout ans
      (some batch) (some sigs)).calls.head? =
      some (.getTxBatchNonce peggyContractAddress batch.tokenContract ourEthereumAddress
        ans.txBatchNonce) := by
  rcases relaySelected_cases currentValset ourEthereumAddress peggyContractAddress peggyId timeout
    ans batch sigs with ⟨h, -⟩ | ⟨n, -, -, ⟨h, -⟩ | ⟨cost, -, ⟨h, -⟩ | ⟨h, -⟩⟩⟩ <;> rw [h] <;> rfl

theorem relaySelected_payload {e : BatchCall} {p : Valset × TransactionBatch × List Confirm × String}
    (he : e ∈ (relaySelected currentValset ourEthereumAddress peggyContractAddress peggyId timeout ans
      (some batch) (some sigs)).calls) (hp : e.payload = some p) :
    p = (currentValset, batch, sigs, peggyId) ∧ ∃ n, ans.txBatchNonce = .ok n ∧ n < batch.nonce := by
  rcases relaySelected_cases currentValset ourEthereumAddress peggyContractAddress peggyId timeout
    ans batch sigs with ⟨h, -⟩ | ⟨n, hn, hlt, hrest⟩
  · rw [h, List.mem_singleton] at he
    subst he
    cases hp
  · refine ⟨?_, n, hn, hlt⟩
    rcases hrest with ⟨h, -⟩ | ⟨cost, -, ⟨h, -⟩ | ⟨h, -⟩⟩ <;>
      simp only [h, List.mem_cons, List.not_mem_nil, or_false] at he <;>
      rcases he with rfl | rfl | rfl <;> simp_all [BatchCall.payload]

theorem filter_isSend_relaySelected :
    ((relaySelected currentValset ourEthereumAddress peggyContractAddress peggyId timeout ans
      (some batch) (some sigs)).calls.filter BatchCall.isSend).length ≤ 1 := by
  rcases relaySelected_cases currentValset ourEthereumAddress peggyContractAddress peggyId timeout
    ans batch sigs with ⟨h, -⟩ | ⟨n, -, -, ⟨h, -⟩ | ⟨cost, -, ⟨h, -⟩ | ⟨h, -⟩⟩⟩ <;> simp [h, BatchCall.isSend]

/-- Lines 67-142 panic exactly when they reach the estimate and it does not fit the `u128` the
cost is logged through. -/
theorem relaySelected_ret_eq_none_iff :
    (relaySelected currentValset ourEthereumAddress peggyContractAddress peggyId timeout ans
      (some batch) (some sigs)).ret = none ↔
    ∃ n cost, ans.txBatchNonce = .ok n ∧ n < batch.nonce ∧ ans.cost = .ok cost ∧
      cost.getTotal.bind downcastToU128 = none := by
  rcases relaySelected_cases currentValset ourEthereumAddress peggyContractAddress peggyId timeout
    ans batch sigs with ⟨h, hge⟩ | ⟨n, hn, hlt, ⟨h, hc⟩ | ⟨cost, hc, ⟨h, ht⟩ | ⟨h, ht⟩⟩⟩ <;>
    simp only [h, reduceCtorEq, false_iff, true_iff, not_exists, not_and]
  · exact fun n _ hn hlt => absurd (hge n hn) (by omega)
  · exact fun _ cost _ _ hc' => absurd hc' (hc cost)
  · exact ⟨n, cost, hn, hlt, hc, ht⟩
  · intro n' cost' hn' _ hc'
    rw [hc, Except.ok.injEq] at hc'
    exact hc' ▸ ht

theorem estimate_mem_relaySelected {n : Nat} (hn : ans.txBatchNonce = .ok n)
    (hlt : n < batch.nonce) :
    .estimateTxBatchCost currentValset batch sigs peggyContractAddress peggyId ans.cost ∈
      (relaySelected currentValset ourEthereumAddress peggyContractAddress peggyId timeout ans
        (some batch) (some sigs)).calls := by
  rcases relaySelected_cases currentValset ourEthereumAddress peggyContractAddress peggyId timeout
    ans batch sigs with ⟨-, hge⟩ | ⟨n', -, -, ⟨h, -⟩ | ⟨cost', -, ⟨h, -⟩ | ⟨h, -⟩⟩⟩
  · exact absurd (hge n hn) (by omega)
  all_goals simp [h]

theorem send_mem_relaySelected {n : Nat} {cost : GasCost} (hn : ans.txBatchNonce = .ok n)
    (hlt : n < batch.nonce) (hc : ans.cost = .ok cost)
    (hfit : cost.getTotal.bind downcastToU128 ≠ none) :
    .sendEthTransactionBatch currentValset batch sigs timeout peggyContractAddress peggyId ans.submit ∈
      (relaySelected currentValset ourEthereumAddress peggyContractAddress peggyId timeout ans
        (some batch) (some sigs)).calls := by
  rcases relaySelected_cases currentValset ourEthereumAddress peggyContractAddress peggyId timeout
    ans batch sigs with ⟨-, hge⟩ | ⟨n', -, -, ⟨-, hc'⟩ | ⟨cost', hc', ⟨-, ht⟩ | ⟨h, -⟩⟩⟩
  · exact absurd (hge n hn) (by omega)
  · exact absurd hc (hc' cost)
  · rw [hc, Except.ok.injEq] at hc'
    exact absurd (hc' ▸ ht) hfit
  · simp [h]

end Selected

theorem filter_isSend_sigCalls (i : Nat) (batches : List TransactionBatch) :
    (sigCalls ans i batches).filter BatchCall.isSend = [] := by
  induction batches generalizing i <;> simp [sigCalls, BatchCall.isSend, *]

theorem mem_of_payload {x : Except PeggyError (List TransactionBatch)} {i : Nat}
    {batches : List TransactionBatch} {rest : List BatchCall} {e : BatchCall}
    {p : Valset × TransactionBatch × List Confirm × String}
    (he : e ∈ BatchCall.getLatestTransactionBatches x :: (sigCalls ans i batches ++ rest))
    (hp : e.payload = some p) : e ∈ rest := by
  rcases List.mem_cons.1 he with rfl | he
  · cases hp
  rcases List.mem_append.1 he with he | he
  · obtain ⟨_, _, _, rfl⟩ := mem_sigCalls ans he
    cases hp
  · exact he

theorem getElem?_succ_sigCalls {x : Except PeggyError (List TransactionBatch)} {rest : List BatchCall}
    {batches : List TransactionBatch} {j : Nat} (hj : j < batches.length) :
    (BatchCall.getLatestTransactionBatches x :: (sigCalls ans 0 batches ++ rest))[j + 1]? =
      some (.getTransactionBatchSignatures batches[j].nonce batches[j].tokenContract
        (ans.signatures j)) := by
  rw [List.getElem?_cons_succ, List.getElem?_append_left (by simpa using hj), getElem?_sigCalls,
    List.getElem?_eq_getElem hj]
  simp

theorem getElem?_length_sigCalls {x : Except PeggyError (List TransactionBatch)}
    {rest : List BatchCall} (batches : List TransactionBatch) :
    (BatchCall.getLatestTransactionBatches x :: (sigCalls ans 0 batches ++ rest))[batches.length + 1]? =
      rest.head? := by
  rw [List.getElem?_cons_succ, List.getElem?_append_right (by simp)]
  simp [List.head?_eq_getElem?]


/-- Everything `relay_batches` can do: stop when the batch query fails, stop after the loop
when no batch passes, or go on with the last batch that passes and its signatures. -/
theorem relayBatches_cases :
    let run := relayBatches orderSigs encodeTxBatchConfirmHashed currentValset ourEthereumAddress
      peggyContractAddress peggyId timeout ans
    ((∀ bs, ans.latestBatches ≠ .ok bs) ∧
      run = ⟨[.getLatestTransactionBatches ans.latestBatches], some ()⟩) ∨
    ∃ bs, ans.latestBatches = .ok bs ∧
      (((∀ j (h : j < bs.length) sigs,
          ¬ SignedAt orderSigs encodeTxBatchConfirmHashed currentValset peggyId ans j bs[j] sigs) ∧
        run = ⟨.getLatestTransactionBatches (.ok bs) :: sigCalls ans 0 bs, some ()⟩) ∨
      ∃ j, ∃ h : j < bs.length, ∃ sigs,
        SignedAt orderSigs encodeTxBatchConfirmHashed currentValset peggyId ans j bs[j] sigs ∧
        (∀ j' (h' : j' < bs.length), j < j' → ∀ sigs',
          ¬ SignedAt orderSigs encodeTxBatchConfirmHashed currentValset peggyId ans j' bs[j'] sigs') ∧
        run = ⟨.getLatestTransactionBatches (.ok bs) :: (sigCalls ans 0 bs ++
            (relaySelected currentValset ourEthereumAddress peggyContractAddress peggyId timeout ans
              (some bs[j]) (some sigs)).calls),
          (relaySelected currentValset ourEthereumAddress peggyContractAddress peggyId timeout ans
              (some bs[j]) (some sigs)).ret⟩) := by
  simp only [relayBatches, Io.call_bind]
  cases hl : ans.latestBatches with
  | error e => exact .inl ⟨fun _ h => (nomatch h), rfl⟩
  | ok bs =>
    obtain ⟨r, hr, hlast⟩ :=
      selectBatch_spec orderSigs encodeTxBatchConfirmHashed currentValset peggyId ans 0 bs none none
    refine .inr ⟨bs, rfl, ?_⟩
    rcases hlast with ⟨rfl, hnone⟩ | ⟨j, hj, sigs, hs, rfl, hlast⟩
    · exact .inl ⟨by simpa only [Nat.zero_add] using hnone, by simp [hr]⟩
    · exact .inr ⟨j, hj, sigs, by simpa only [Nat.zero_add] using hs,
        by simpa only [Nat.zero_add] using hlast, by simp [hr]⟩

theorem relayBatches_eq_of_last {bs : List TransactionBatch} {j : Nat} {hj : j < bs.length}
    {sigs : List Confirm} (hbs : ans.latestBatches = .ok bs)
    (hs : SignedAt orderSigs encodeTxBatchConfirmHashed currentValset peggyId ans j bs[j] sigs)
    (hlast : ∀ j' (h' : j' < bs.length), j < j' → ∀ sigs',
      ¬ SignedAt orderSigs encodeTxBatchConfirmHashed currentValset peggyId ans j' bs[j'] sigs') :
    relayBatches orderSigs encodeTxBatchConfirmHashed currentValset ourEthereumAddress
        peggyContractAddress peggyId timeout ans =
      ⟨.getLatestTransactionBatches (.ok bs) :: (sigCalls ans 0 bs ++
          (relaySelected currentValset ourEthereumAddress peggyContractAddress peggyId timeout ans
            (some bs[j]) (some sigs)).calls),
        (relaySelected currentValset ourEthereumAddress peggyContractAddress peggyId timeout ans
            (some bs[j]) (some sigs)).ret⟩ := by
  rcases relayBatches_cases orderSigs encodeTxBatchConfirmHashed currentValset ourEthereumAddress
      peggyContractAddress peggyId timeout ans with
    ⟨hne, -⟩ | ⟨bs', hbs', ⟨hnone, -⟩ | ⟨j', hj', sigs', hs', hlast', hrun⟩⟩
  · exact absurd hbs (hne bs)
  all_goals obtain rfl : bs' = bs := Except.ok.inj (hbs'.symm.trans hbs)
  · exact absurd hs (hnone j hj sigs)
  · obtain ⟨rfl, rfl⟩ := SignedAt.last_unique hs' hlast' hs hlast
    exact hrun

/-- Whatever the batch list and the answers, every cost estimate and submission of a run is
made once, for a batch whose own iteration's signatures `order_sigs` accepted and whose nonce
is above the contract's, and the run only panics while logging a cost. -/
theorem relayBatches_submits_only_checked_batch :
    ((relayBatches orderSigs encodeTxBatchConfirmHashed currentValset ourEthereumAddress
        peggyContractAddress peggyId timeout ans).calls.filter BatchCall.isSend).length ≤ 1 ∧
    (∀ e ∈ (relayBatches orderSigs encodeTxBatchConfirmHashed currentValset ourEthereumAddress
        peggyContractAddress peggyId timeout ans).calls, ∀ valset batch sigs id,
      e.payload = some (valset, batch, sigs, id) →
      valset = currentValset ∧ id = peggyId ∧
      (∃ bs j, (relayBatches orderSigs encodeTxBatchConfirmHashed currentValset ourEthereumAddress
          peggyContractAddress peggyId timeout ans).calls[0]? =
            some (.getLatestTransactionBatches (.ok bs)) ∧
        bs[j]? = some batch ∧
        (relayBatches orderSigs encodeTxBatchConfirmHashed currentValset ourEthereumAddress
          peggyContractAddress peggyId timeout ans).calls[j + 1]? =
            some (.getTransactionBatchSignatures batch.nonce batch.tokenContract (.ok sigs))) ∧
      (∃ out, orderSigs currentValset (encodeTxBatchConfirmHashed peggyId batch) sigs = .ok out) ∧
      ∃ n, .getTxBatchNonce peggyContractAddress batch.tokenContract ourEthereumAddress (.ok n) ∈
          (relayBatches orderSigs encodeTxBatchConfirmHashed currentValset ourEthereumAddress
            peggyContractAddress peggyId timeout ans).calls ∧ n < batch.nonce) ∧
    (∀ e₁ ∈ (relayBatches orderSigs encodeTxBatchConfirmHashed currentValset ourEthereumAddress
        peggyContractAddress peggyId timeout ans).calls,
      ∀ e₂ ∈ (relayBatches orderSigs encodeTxBatchConfirmHashed currentValset ourEthereumAddress
        peggyContractAddress peggyId timeout ans).calls,
      ∀ p₁ p₂, e₁.payload = some p₁ → e₂.payload = some p₂ → p₁ = p₂) ∧
    (∀ i batches (b : Option TransactionBatch) (s : Option (List Confirm)) r, b.isSome = s.isSome →
      (selectBatch orderSigs encodeTxBatchConfirmHashed currentValset peggyId ans i batches b s).ret =
        some r → r.1.isSome = r.2.isSome) ∧
    ((relayBatches orderSigs encodeTxBatchConfirmHashed currentValset ourEthereumAddress
        peggyContractAddress peggyId timeout ans).ret = none →
      ∃ batch sigs cost, .estimateTxBatchCost currentValset batch sigs peggyContractAddress peggyId
          (.ok cost) ∈ (relayBatches orderSigs encodeTxBatchConfirmHashed currentValset
            ourEthereumAddress peggyContractAddress peggyId timeout ans).calls ∧
        cost.getTotal.bind downcastToU128 = none) := by
  have hinv : ∀ i batches (b : Option TransactionBatch) (s : Option (List Confirm)) r,
      b.isSome = s.isSome →
      (selectBatch orderSigs encodeTxBatchConfirmHashed currentValset peggyId ans i batches b s).ret =
        some r → r.1.isSome = r.2.isSome := by
    intro i batches b s r hbs hr
    obtain ⟨r', hr', hl⟩ := selectBatch_spec orderSigs encodeTxBatchConfirmHashed currentValset
      peggyId ans i batches b s
    obtain rfl : r' = r := by simpa [hr'] using hr
    rcases hl with ⟨rfl, -⟩ | ⟨j, hj, sg, -, rfl, -⟩
    · exact hbs
    · rfl
  have hnil : ∀ x bs e p, e ∈ BatchCall.getLatestTransactionBatches x :: sigCalls ans 0 bs →
      e.payload = some p → False := fun _ _ e _ he hp =>
    List.not_mem_nil e (mem_of_payload ans (by rwa [List.append_nil]) hp)
  rcases relayBatches_cases orderSigs encodeTxBatchConfirmHashed currentValset ourEthereumAddress
      peggyContractAddress peggyId timeout ans with
    ⟨-, hrun⟩ | ⟨bs, -, ⟨-, hrun⟩ | ⟨j, hj, sigs, hs, -, hrun⟩⟩
  · rw [hrun]
    exact ⟨by simp [BatchCall.isSend], fun e he _ _ _ _ hp => (hnil _ [] e _ he hp).elim,
      fun e he _ _ _ _ hp => (hnil _ [] e _ he hp).elim, hinv, fun h => nomatch h⟩
  · rw [hrun]
    exact ⟨by simp [BatchCall.isSend, filter_isSend_sigCalls],
      fun e he _ _ _ _ hp => (hnil _ _ e _ he hp).elim, fun e he _ _ _ _ hp => (hnil _ _ e _ he hp).elim,
      hinv, fun h => nomatch h⟩
  · have hsel := @relaySelected_payload currentValset ourEthereumAddress peggyContractAddress peggyId
      timeout ans bs[j] sigs
    rw [hrun]
    refine ⟨?_, fun e he valset batch sigs' id hp => ?_, fun e₁ he₁ e₂ he₂ p₁ p₂ hp₁ hp₂ => ?_, hinv,
      fun hret => ?_⟩
    · simpa [BatchCall.isSend, filter_isSend_sigCalls] using
        filter_isSend_relaySelected currentValset ourEthereumAddress peggyContractAddress peggyId
          timeout ans bs[j] sigs
    · obtain ⟨hp', n, hn, hlt⟩ := hsel (mem_of_payload ans he hp) hp
      simp only [Prod.mk.injEq] at hp'
      obtain ⟨h₁, h₂, h₃, h₄⟩ := hp'
      subst valset batch sigs' id
      have hread := List.mem_of_mem_head? (head?_relaySelected currentValset ourEthereumAddress
        peggyContractAddress peggyId timeout ans bs[j] sigs)
      rw [hn] at hread
      exact ⟨rfl, rfl, ⟨bs, j, List.getElem?_cons_zero, List.getElem?_eq_getElem hj,
          by rw [getElem?_succ_sigCalls ans hj, hs.1]⟩, hs.2,
        n, List.mem_cons_of_mem _ (List.mem_append_right _ hread), hlt⟩
    · rw [(hsel (mem_of_payload ans he₁ hp₁) hp₁).1, (hsel (mem_of_payload ans he₂ hp₂) hp₂).1]
    · obtain ⟨n, cost, hn, hlt, hc, hnone⟩ := (relaySelected_ret_eq_none_iff currentValset
        ourEthereumAddress peggyContractAddress peggyId timeout ans bs[j] sigs).1 hret
      refine ⟨bs[j], sigs, cost, List.mem_cons_of_mem _ (List.mem_append_right _ ?_), hnone⟩
      simpa only [hc] using estimate_mem_relaySelected currentValset ourEthereumAddress
        peggyContractAddress peggyId timeout ans bs[j] sigs hn hlt

/-- A run panics exactly when the last batch whose signatures pass is above the contract's nonce
for its token and its cost estimate is `Ok` with `gas * gas_price` at least 2^128. -/
theorem relayBatches_ret_eq_none_iff :
    (relayBatches orderSigs encodeTxBatchConfirmHashed currentValset ourEthereumAddress
        peggyContractAddress peggyId timeout ans).ret = none ↔
      ∃ bs j, ∃ hj : j < bs.length, ∃ sigs, ans.latestBatches = .ok bs ∧
        SignedAt orderSigs encodeTxBatchConfirmHashed currentValset peggyId ans j bs[j] sigs ∧
        (∀ j' (h' : j' < bs.length), j < j' → ∀ sigs',
          ¬ SignedAt orderSigs encodeTxBatchConfirmHashed currentValset peggyId ans j' bs[j'] sigs') ∧
        ∃ n cost, ans.txBatchNonce = .ok n ∧ n < bs[j].nonce ∧ ans.cost = .ok cost ∧
          2 ^ 128 ≤ cost.gas.val * cost.gasPrice.val := by
  constructor
  · intro hret
    rcases relayBatches_cases orderSigs encodeTxBatchConfirmHashed currentValset ourEthereumAddress
        peggyContractAddress peggyId timeout ans with
      ⟨-, hrun⟩ | ⟨bs, hbs, ⟨-, hrun⟩ | ⟨j, hj, sigs, hs, hlast, hrun⟩⟩ <;> rw [hrun] at hret
    · cases hret
    · cases hret
    · obtain ⟨n, cost, hn, hlt, hc, hnone⟩ := (relaySelected_ret_eq_none_iff currentValset
        ourEthereumAddress peggyContractAddress peggyId timeout ans bs[j] sigs).1 hret
      exact ⟨bs, j, hj, sigs, hbs, hs, hlast, n, cost, hn, hlt, hc,
        getTotal_bind_downcastToU128_eq_none.1 hnone⟩
  · rintro ⟨bs, j, hj, sigs, hbs, hs, hlast, n, cost, hn, hlt, hc, hbig⟩
    rw [relayBatches_eq_of_last orderSigs encodeTxBatchConfirmHashed currentValset ourEthereumAddress
      peggyContractAddress peggyId timeout ans hbs hs hlast]
    exact (relaySelected_ret_eq_none_iff currentValset ourEthereumAddress peggyContractAddress peggyId
      timeout ans bs[j] sigs).2 ⟨n, cost, hn, hlt, hc, getTotal_bind_downcastToU128_eq_none.2 hbig⟩

section LastBatch
variable (bs : List TransactionBatch) (j : Nat) (hj : j < bs.length) (sigs : List Confirm)
  (hbs : ans.latestBatches = .ok bs)
  (hs : SignedAt orderSigs encodeTxBatchConfirmHashed currentValset peggyId ans j bs[j] sigs)
  (hlast : ∀ j' (h' : j' < bs.length), j < j' → ∀ sigs',
    ¬ SignedAt orderSigs encodeTxBatchConfirmHashed currentValset peggyId ans j' bs[j'] sigs')
include hbs hs hlast

/-- The batch a run checks against the contract and estimates and submits is the last one
whose signatures pass. It is the oldest passing batch of its token when the list gives each
token's batches newest first. -/
theorem relayBatches_checks_last_signed_batch :
    (relayBatches orderSigs encodeTxBatchConfirmHashed currentValset ourEthereumAddress
        peggyContractAddress peggyId timeout ans).calls[bs.length + 1]? =
      some (.getTxBatchNonce peggyContractAddress bs[j].tokenContract ourEthereumAddress
        ans.txBatchNonce) ∧
    (∀ e ∈ (relayBatches orderSigs encodeTxBatchConfirmHashed currentValset ourEthereumAddress
        peggyContractAddress peggyId timeout ans).calls, ∀ p,
      e.payload = some p → p = (currentValset, bs[j], sigs, peggyId)) ∧
    ((∀ j₁ j₂ (h₁ : j₁ < bs.length) (h₂ : j₂ < bs.length), j₁ < j₂ →
        bs[j₁].tokenContract = bs[j₂].tokenContract → bs[j₂].nonce ≤ bs[j₁].nonce) →
      ∀ j' (h' : j' < bs.length) sigs', bs[j'].tokenContract = bs[j].tokenContract →
        SignedAt orderSigs encodeTxBatchConfirmHashed currentValset peggyId ans j' bs[j'] sigs' →
        bs[j].nonce ≤ bs[j'].nonce) := by
  rw [relayBatches_eq_of_last orderSigs encodeTxBatchConfirmHashed currentValset ourEthereumAddress
    peggyContractAddress peggyId timeout ans hbs hs hlast]
  refine ⟨?_, fun e he p hp => (relaySelected_payload currentValset ourEthereumAddress
    peggyContractAddress peggyId timeout ans bs[j] sigs (mem_of_payload ans he hp) hp).1, ?_⟩
  · rw [getElem?_length_sigCalls, head?_relaySelected]
  · intro hord j' hj' sigs' htok hs'
    rcases Nat.lt_trichotomy j' j with h | rfl | h
    · exact hord j' j hj' hj h htok
    · exact le_rfl
    · exact absurd hs' (hlast j' hj' h sigs')

/-- The contract's nonce for the token of the last batch whose signatures pass decides the
cycle. Below the batch's nonce, with a cost estimate that fits the `u128` it is logged through,
the run submits that batch. At or above it, the run estimates and submits nothing, whichever
other batches pass and whatever their tokens' nonces. -/
theorem relayBatches_submits_last_signed_batch :
    (∀ n, ans.txBatchNonce = .ok n → n < bs[j].nonce → ∀ cost, ans.cost = .ok cost →
      cost.getTotal.bind downcastToU128 ≠ none →
      (relayBatches orderSigs encodeTxBatchConfirmHashed currentValset ourEthereumAddress
          peggyContractAddress peggyId timeout ans).calls[bs.length + 1]? =
        some (.getTxBatchNonce peggyContractAddress bs[j].tokenContract ourEthereumAddress (.ok n)) ∧
      .sendEthTransactionBatch currentValset bs[j] sigs timeout peggyContractAddress peggyId
          ans.submit ∈
        (relayBatches orderSigs encodeTxBatchConfirmHashed currentValset ourEthereumAddress
          peggyContractAddress peggyId timeout ans).calls) ∧
    (∀ n, ans.txBatchNonce = .ok n → bs[j].nonce ≤ n →
      ∀ e ∈ (relayBatches orderSigs encodeTxBatchConfirmHashed currentValset ourEthereumAddress
        peggyContractAddress peggyId timeout ans).calls, e.payload = none) := by
  rw [relayBatches_eq_of_last orderSigs encodeTxBatchConfirmHashed currentValset ourEthereumAddress
    peggyContractAddress peggyId timeout ans hbs hs hlast, getElem?_length_sigCalls,
    head?_relaySelected]
  refine ⟨fun n hn hlt cost hc hfit => ⟨by rw [hn], List.mem_cons_of_mem _ (List.mem_append_right _
    (send_mem_relaySelected currentValset ourEthereumAddress peggyContractAddress peggyId timeout
      ans bs[j] sigs hn hlt hc hfit))⟩, fun n hn hge e he => ?_⟩
  cases hp : e.payload with
  | none => rfl
  | some p =>
    obtain ⟨-, n', hn', hlt⟩ := relaySelected_payload currentValset ourEthereumAddress
      peggyContractAddress peggyId timeout ans bs[j] sigs (mem_of_payload ans he hp) hp
    obtain rfl := Except.ok.inj (hn.symm.trans hn')
    omega

end LastBatch

/-- A cost estimate of 2^128 gas at a gas price of 1 for a batch the relayer is about to submit
panics it while it logs the cost. -/
theorem relayBatches_panics_on_large_estimate (batch : TransactionBatch) (sigs : List Confirm)
    (out : List EthSignature) (n : Nat) (submit : Except PeggyError Unit)
    (hs : orderSigs currentValset (encodeTxBatchConfirmHashed peggyId batch) sigs = .ok out)
    (hn : n < batch.nonce) :
    (relayBatches orderSigs encodeTxBatchConfirmHashed currentValset ourEthereumAddress
      peggyContractAddress peggyId timeout
      ⟨.ok [batch], fun _ => .ok sigs, .ok n, .ok ⟨⟨2 ^ 128, by omega⟩, ⟨1, by omega⟩⟩, submit⟩).ret =
      none := by
  rw [@relayBatches_eq_of_last orderSigs encodeTxBatchConfirmHashed currentValset ourEthereumAddress
    peggyContractAddress peggyId timeout _ [batch] 0 (by simp) sigs rfl ⟨rfl, out, hs⟩
    fun j' h' hlt _ _ => by simp at h'; omega]
  dsimp only
  apply (relaySelected_ret_eq_none_iff currentValset ourEthereumAddress peggyContractAddress peggyId
    timeout _ _ sigs).2
  exact ⟨n, _, rfl, hn, rfl, getTotal_bind_downcastToU128_eq_none.2 (Nat.mul_one _).ge⟩

end

-- One member, of power 100 and address 7, signs everything; a batch's hash is its nonce.
def soloValset : Valset := ⟨1, [⟨100, some 7⟩]⟩

def soloOrderSigs : OrderSigs := Valset.orderSigs 66 recoverByR

def nonceHash (_peggyId : String) (batch : TransactionBatch) : Hash := batch.nonce

def batchOf (token nonce : Nat) : TransactionBatch := ⟨nonce, 1000, [], 0, token⟩

def confirmOf (batch : TransactionBatch) : Confirm := ⟨7, ⟨27, batch.nonce, 7⟩⟩

def smallCost : GasCost := ⟨⟨21000, by omega⟩, ⟨1, by omega⟩⟩

-- Batches 5 and 7 of token 9, oldest first, both confirmed; the contract is at nonce 3.
def sameTokenAnswers : BatchAnswers :=
  ⟨.ok [batchOf 9 5, batchOf 9 7], fun j => .ok [confirmOf (batchOf 9 (5 + 2 * j))], .ok 3,
    .ok smallCost, .ok ()⟩

/-- Both batches of one token pass, and the relayer checks and submits the newer one. -/
theorem relayBatches_submits_newer_batch :
    SignedAt soloOrderSigs nonceHash soloValset "" sameTokenAnswers 0 (batchOf 9 5)
      [confirmOf (batchOf 9 5)] ∧
    (batchOf 9 5).tokenContract = (batchOf 9 7).tokenContract ∧
    (batchOf 9 5).nonce < (batchOf 9 7).nonce ∧
    relayBatches soloOrderSigs nonceHash soloValset 0 0 "" 0 sameTokenAnswers =
      ⟨[.getLatestTransactionBatches (.ok [batchOf 9 5, batchOf 9 7]),
        .getTransactionBatchSignatures 5 9 (.ok [confirmOf (batchOf 9 5)]),
        .getTransactionBatchSignatures 7 9 (.ok [confirmOf (batchOf 9 7)]),
        .getTxBatchNonce 0 9 0 (.ok 3),
        .estimateTxBatchCost soloValset (batchOf 9 7) [confirmOf (batchOf 9 7)] 0 "" (.ok smallCost),
        .sendEthTransactionBatch soloValset (batchOf 9 7) [confirmOf (batchOf 9 7)] 0 0 "" (.ok ())],
        some ()⟩ :=
  ⟨⟨rfl, _, rfl⟩, rfl, by decide, rfl⟩

theorem sameToken_checks_batch_seven :
    SignedAt soloOrderSigs nonceHash soloValset "" sameTokenAnswers 1 (batchOf 9 7)
      [confirmOf (batchOf 9 7)] ∧
    (relayBatches soloOrderSigs nonceHash soloValset 0 0 "" 0 sameTokenAnswers).calls[3]? =
      some (.getTxBatchNonce 0 9 0 (.ok 3)) :=
  ⟨⟨rfl, _, rfl⟩,
    (relayBatches_checks_last_signed_batch soloOrderSigs nonceHash soloValset 0 0 "" 0 sameTokenAnswers
      [batchOf 9 5, batchOf 9 7] 1 (by decide) [confirmOf (batchOf 9 7)] rfl ⟨rfl, _, rfl⟩
      fun j' h' hlt _ _ => by simp at h'; omega).1⟩

theorem sameToken_submits_batch_seven :
    3 < (batchOf 9 7).nonce ∧
    .sendEthTransactionBatch soloValset (batchOf 9 7) [confirmOf (batchOf 9 7)] 0 0 "" (.ok ()) ∈
      (relayBatches soloOrderSigs nonceHash soloValset 0 0 "" 0 sameTokenAnswers).calls :=
  ⟨by decide,
    (relayBatches_submits_last_signed_batch soloOrderSigs nonceHash soloValset 0 0 "" 0
      sameTokenAnswers [batchOf 9 5, batchOf 9 7] 1 (by decide) [confirmOf (batchOf 9 7)] rfl
      ⟨rfl, _, rfl⟩ fun j' h' hlt _ _ => by simp at h'; omega).1 3 rfl (by decide) smallCost rfl
      (fun h => absurd (getTotal_bind_downcastToU128_eq_none.1 h) (by decide)) |>.2⟩

theorem solo_relayer_panics_on_large_estimate :
    soloOrderSigs soloValset (nonceHash "" (batchOf 9 5)) [confirmOf (batchOf 9 5)] =
      .ok [⟨27, 5, 7⟩] ∧
    (relayBatches soloOrderSigs nonceHash soloValset 0 0 "" 0
      ⟨.ok [batchOf 9 5], fun _ => .ok [confirmOf (batchOf 9 5)], .ok 3,
        .ok ⟨⟨2 ^ 128, by omega⟩, ⟨1, by omega⟩⟩, .ok ()⟩).ret = none :=
  ⟨rfl, relayBatches_panics_on_large_estimate soloOrderSigs nonceHash soloValset 0 0 "" 0
    (batchOf 9 5) [confirmOf (batchOf 9 5)] [⟨27, 5, 7⟩] 3 (.ok ()) rfl (by decide)⟩

-- The contract has executed token 1's batches up to nonce 1 and token 2's up to nonce 5; the
-- relayer is given batch 2 of token 1, then batch 5 of token 2, both confirmed.
def twoTokenContract (token : EthAddress) : Nat := if token = 1 then 1 else 5

def twoTokenAnswers : BatchAnswers :=
  ⟨.ok [batchOf 1 2, batchOf 2 5],
    fun j => .ok [confirmOf (if j = 0 then batchOf 1 2 else batchOf 2 5)],
    .ok (twoTokenContract 2), .ok smallCost, .ok ()⟩

/-- Batch 2 of token 1 passes and is above the contract's nonce for its token, but the relayer
checks only the last passing batch, of token 2 and already executed, and submits nothing. -/
theorem relayBatches_stalls_behind_executed_batch :
    SignedAt soloOrderSigs nonceHash soloValset "" twoTokenAnswers 0 (batchOf 1 2)
      [confirmOf (batchOf 1 2)] ∧
    twoTokenContract (batchOf 1 2).tokenContract < (batchOf 1 2).nonce ∧
    relayBatches soloOrderSigs nonceHash soloValset 0 0 "" 0 twoTokenAnswers =
      ⟨[.getLatestTransactionBatches (.ok [batchOf 1 2, batchOf 2 5]),
        .getTransactionBatchSignatures 2 1 (.ok [confirmOf (batchOf 1 2)]),
        .getTransactionBatchSignatures 5 2 (.ok [confirmOf (batchOf 2 5)]),
        .getTxBatchNonce 0 2 0 (.ok (twoTokenContract 2))], some ()⟩ :=
  ⟨⟨rfl, _, rfl⟩, by decide, rfl⟩

end Peggy
