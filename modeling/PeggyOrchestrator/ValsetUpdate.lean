import PeggyOrchestrator.Io
import PeggyOrchestrator.PeggyUtils
set_option autoImplicit false

/-!
`ethereum_peggy/src/valset_update.rs`: relaying a new validator set to the Peggy contract,
`send_eth_valset_update`, and the `updateValset` call it broadcasts, `encode_valset_payload`.
The call is modelled by its arguments; their ABI encoding is not.
-/

namespace Peggy

/-- The arguments of the contract's `updateValset`, in the order `encode_valset_payload` passes
them. -/
structure UpdateValset where
  newValidators : List EthAddress
  newPowers : List Nat
  newValsetNonce : Nat
  currentValidators : List EthAddress
  currentPowers : List Nat
  currentValsetNonce : Nat
  v : List Nat
  r : List Nat
  s : List Nat
  deriving DecidableEq, Repr

/-- The adapter calls of `send_eth_valset_update`, each with its arguments and its answer. -/
inductive ValsetCall where
  | getValsetNonce (peggyContractAddress caller : EthAddress) (nonce : Except PeggyError Nat)
  | sendTransaction (toAddress : EthAddress) (data : UpdateValset) (value : Nat)
      (ownAddress : EthAddress) (txid : Except Web3Error Hash)
  | waitForTransaction (tx : Hash) (timeout : Nat) (receipt : Except Web3Error Unit)

def ValsetCall.isSend : ValsetCall → Bool
  | .sendTransaction .. => true
  | _ => false

namespace ValsetCall
variable {a b : EthAddress} {n : Except PeggyError Nat} {d : UpdateValset} {v tx t : Nat}
  {txid : Except Web3Error Hash} {r : Except Web3Error Unit}

@[simp] theorem isSend_getValsetNonce : (getValsetNonce a b n).isSend = false := rfl
@[simp] theorem isSend_sendTransaction : (sendTransaction a d v b txid).isSend = true := rfl
@[simp] theorem isSend_waitForTransaction : (waitForTransaction tx t r).isSend = false := rfl

end ValsetCall

/-- The error the call's answer makes `send_eth_valset_update` return through `?`. -/
def ValsetCall.failure : ValsetCall → Option PeggyError
  | .getValsetNonce _ _ (.error e) => some e
  | .sendTransaction _ _ _ _ (.error e) => some (.ethereumRestError e)
  | .waitForTransaction _ _ (.error e) => some (.ethereumRestError e)
  | _ => none

namespace ValsetCall
variable {a b : EthAddress} {m : Nat} {d : UpdateValset} {v tx t : Nat} {h : Hash}
  {e : PeggyError} {w : Web3Error}

@[simp] theorem failure_getValsetNonce_error : (getValsetNonce a b (.error e)).failure = some e :=
  rfl
@[simp] theorem failure_getValsetNonce_ok : (getValsetNonce a b (.ok m)).failure = none := rfl
@[simp] theorem failure_sendTransaction_error :
    (sendTransaction a d v b (.error w)).failure = some (.ethereumRestError w) := rfl
@[simp] theorem failure_sendTransaction_ok : (sendTransaction a d v b (.ok h)).failure = none := rfl
@[simp] theorem failure_waitForTransaction_error :
    (waitForTransaction tx t (.error w)).failure = some (.ethereumRestError w) := rfl
@[simp] theorem failure_waitForTransaction_ok : (waitForTransaction tx t (.ok ())).failure = none :=
  rfl

end ValsetCall

/-- What the adapter calls of one `send_eth_valset_update` answer: the contract's valset nonce
before the broadcast, the broadcast's txid, the receipt and the nonce after it. -/
structure ValsetAnswers where
  beforeNonce : Except PeggyError Nat
  txid : Except Web3Error Hash
  receipt : Except Web3Error Unit
  lastNonce : Except PeggyError Nat

/-- The `web30` `TransactionRequest` that `estimate_valset_cost` passes to `eth_estimate_gas`. -/
structure TransactionRequest where
  fromAddress : Option EthAddress
  toAddress : EthAddress
  nonce : Option Uint256
  gasPrice : Option Uint256
  gas : Option Uint256
  value : Option Uint256
  data : Option UpdateValset

inductive ValsetCostCall where
  | ethGetBalance (address : EthAddress) (balance : Except Web3Error Uint256)
  | ethGetTransactionCount (address : EthAddress) (count : Except Web3Error Uint256)
  | ethGasPrice (gasPrice : Except Web3Error Uint256)
  | ethEstimateGas (request : TransactionRequest) (gas : Except Web3Error Uint256)

structure ValsetCostAnswers where
  balance : Except Web3Error Uint256
  transactionCount : Except Web3Error Uint256
  gasPrice : Except Web3Error Uint256
  estimate : Except Web3Error Uint256

section
variable (orderSigs : OrderSigs) (encodeValsetConfirmHashed : String → Valset → Hash)

/-- `encode_valset_payload`: the signatures are over the new valset and ordered by the old one. -/
def encodeValsetPayload (newValset oldValset : Valset) (confirms : List Confirm)
    (peggyId : String) : Except PeggyError UpdateValset := do
  let (oldAddresses, oldPowers) := oldValset.filterEmptyAddresses
  let (newAddresses, newPowers) := newValset.filterEmptyAddresses
  let oldNonce := oldValset.nonce
  let newNonce := newValset.nonce
  let hash := encodeValsetConfirmHashed peggyId newValset
  let sigData ← orderSigs oldValset hash confirms
  let sigArrays := toArrays sigData
  return ⟨newAddresses, newPowers, newNonce, oldAddresses, oldPowers, oldNonce,
    sigArrays.v, sigArrays.r, sigArrays.s⟩

theorem encodeValsetPayload_eq_ok {newValset oldValset : Valset} {confirms : List Confirm}
    {peggyId : String} {p : UpdateValset} :
    encodeValsetPayload orderSigs encodeValsetConfirmHashed newValset oldValset confirms peggyId =
        .ok p ↔
      ∃ out, orderSigs oldValset (encodeValsetConfirmHashed peggyId newValset) confirms = .ok out ∧
        p = ⟨newValset.filterEmptyAddresses.1, newValset.filterEmptyAddresses.2, newValset.nonce,
          oldValset.filterEmptyAddresses.1, oldValset.filterEmptyAddresses.2, oldValset.nonce,
          (toArrays out).v, (toArrays out).r, (toArrays out).s⟩ := by
  simp only [encodeValsetPayload]
  cases orderSigs oldValset (encodeValsetConfirmHashed peggyId newValset) confirms <;>
    simp [eq_comm]

theorem encodeValsetPayload_eq_error {newValset oldValset : Valset} {confirms : List Confirm}
    {peggyId : String} {e : PeggyError} :
    encodeValsetPayload orderSigs encodeValsetConfirmHashed newValset oldValset confirms peggyId =
        .error e ↔
      orderSigs oldValset (encodeValsetConfirmHashed peggyId newValset) confirms = .error e := by
  simp only [encodeValsetPayload]
  cases orderSigs oldValset (encodeValsetConfirmHashed peggyId newValset) confirms <;> simp

variable (newValset oldValset : Valset) (confirms : List Confirm) (timeout : Nat)
  (peggyContractAddress : EthAddress) (peggyId : String) (ethAddress : EthAddress)
  (ans : ValsetAnswers)

/-- `estimate_valset_cost`; `ourEthAddress` is the address of `our_eth_key`. The payload is
encoded while the request is built, after the gas price query. -/
def estimateValsetCost (ourEthAddress : EthAddress) (ans : ValsetCostAnswers) :
    Io ValsetCostCall (Except PeggyError GasCost) := do
  let ourBalance ← Io.call (.ethGetBalance ourEthAddress) ans.balance
  match ourBalance with
  | .error e => return .error (.ethereumRestError e)
  | .ok ourBalance =>
    let ourNonce ← Io.call (.ethGetTransactionCount ourEthAddress) ans.transactionCount
    match ourNonce with
    | .error e => return .error (.ethereumRestError e)
    | .ok ourNonce =>
      let gasLimit := Uint256.min ⟨2 ^ 64 - 2, by omega⟩ ourBalance
      let gasPrice ← Io.call .ethGasPrice ans.gasPrice
      match gasPrice with
      | .error e => return .error (.ethereumRestError e)
      | .ok gasPrice =>
        let zero : Uint256 := .ofU8 0
        match encodeValsetPayload orderSigs encodeValsetConfirmHashed newValset oldValset confirms
            peggyId with
        | .error e => return .error e
        | .ok data =>
          let val ← Io.call (.ethEstimateGas ⟨some ourEthAddress, peggyContractAddress,
            some ourNonce, some gasPrice, some gasLimit, some zero, some data⟩) ans.estimate
          match val with
          | .error e => return .error (.ethereumRestError e)
          | .ok val => return .ok ⟨val, gasPrice⟩

/-- `send_eth_valset_update`; `ethAddress` is the address of `our_eth_key`. Whether the contract
reached the new nonce after the receipt is only logged. -/
def sendEthValsetUpdate : Io ValsetCall (Except PeggyError Unit) := do
  let oldNonce := oldValset.nonce
  let newNonce := newValset.nonce
  unless newNonce > oldNonce do Io.panic
  let beforeNonce ← Io.call (.getValsetNonce peggyContractAddress ethAddress) ans.beforeNonce
  match beforeNonce with
  | .error e => return .error e
  | .ok beforeNonce =>
    if beforeNonce ≠ oldNonce then return .ok ()
    else
      match encodeValsetPayload orderSigs encodeValsetConfirmHashed newValset oldValset confirms
          peggyId with
      | .error e => return .error e
      | .ok payload =>
        let tx ← Io.call (.sendTransaction peggyContractAddress payload 0 ethAddress) ans.txid
        match tx with
        | .error e => return .error (.ethereumRestError e)
        | .ok tx =>
          let receipt ← Io.call (.waitForTransaction tx timeout) ans.receipt
          match receipt with
          | .error e => return .error (.ethereumRestError e)
          | .ok () =>
            let lastNonce ← Io.call (.getValsetNonce peggyContractAddress ethAddress) ans.lastNonce
            match lastNonce with
            | .error e => return .error e
            | .ok _ => return .ok ()

/-- The assertion of line 27: an update to a nonce that is not above the old one panics. -/
theorem sendEthValsetUpdate_of_le (h : newValset.nonce ≤ oldValset.nonce) :
    sendEthValsetUpdate orderSigs encodeValsetConfirmHashed newValset oldValset confirms timeout
      peggyContractAddress peggyId ethAddress ans = ⟨[], none⟩ := by
  simp [sendEthValsetUpdate, Nat.not_lt.2 h, Io.panic]

/-- Everything a run can do once the assertion holds: stop on the first nonce read, stop when
the contract is on another nonce, stop when `order_sigs` fails, or broadcast and stop at the
first failing step after it. -/
theorem sendEthValsetUpdate_cases (hnew : oldValset.nonce < newValset.nonce) :
    let run := sendEthValsetUpdate orderSigs encodeValsetConfirmHashed newValset oldValset confirms
      timeout peggyContractAddress peggyId ethAddress ans
    let read := ValsetCall.getValsetNonce peggyContractAddress ethAddress
    (∃ e, ans.beforeNonce = .error e ∧ run = ⟨[read (.error e)], some (.error e)⟩) ∨
    (∃ n, ans.beforeNonce = .ok n ∧ n ≠ oldValset.nonce ∧ run = ⟨[read (.ok n)], some (.ok ())⟩) ∨
    (∃ e, ans.beforeNonce = .ok oldValset.nonce ∧
      encodeValsetPayload orderSigs encodeValsetConfirmHashed newValset oldValset confirms peggyId =
        .error e ∧
      run = ⟨[read (.ok oldValset.nonce)], some (.error e)⟩) ∨
    ∃ payload, ans.beforeNonce = .ok oldValset.nonce ∧
      encodeValsetPayload orderSigs encodeValsetConfirmHashed newValset oldValset confirms peggyId =
        .ok payload ∧
      let send := ValsetCall.sendTransaction peggyContractAddress payload 0 ethAddress ans.txid
      ((∃ e, ans.txid = .error e ∧
        run = ⟨[read (.ok oldValset.nonce), send], some (.error (.ethereumRestError e))⟩) ∨
      ∃ tx, ans.txid = .ok tx ∧
        let wait := ValsetCall.waitForTransaction tx timeout ans.receipt
        ((∃ e, ans.receipt = .error e ∧
          run = ⟨[read (.ok oldValset.nonce), send, wait], some (.error (.ethereumRestError e))⟩) ∨
        (ans.receipt = .ok () ∧
          ((∃ e, ans.lastNonce = .error e ∧
            run = ⟨[read (.ok oldValset.nonce), send, wait, read (.error e)], some (.error e)⟩) ∨
          ∃ n, ans.lastNonce = .ok n ∧
            run = ⟨[read (.ok oldValset.nonce), send, wait, read (.ok n)], some (.ok ())⟩)))) := by
  have hgt : newValset.nonce > oldValset.nonce := hnew
  simp only [sendEthValsetUpdate, hgt, ↓reduceIte, Io.pure_bind, Io.call_bind]
  cases hb : ans.beforeNonce with
  | error e => exact .inl ⟨e, rfl, rfl⟩
  | ok n =>
    by_cases hn : n = oldValset.nonce
    · subst hn
      cases he : encodeValsetPayload orderSigs encodeValsetConfirmHashed newValset oldValset confirms
        peggyId with
      | error e => exact .inr (.inr (.inl ⟨e, rfl, rfl, by simp⟩))
      | ok payload =>
        refine .inr (.inr (.inr ⟨payload, rfl, rfl, ?_⟩))
        cases ht : ans.txid with
        | error e => exact .inl ⟨e, rfl, by simp⟩
        | ok tx =>
          refine .inr ⟨tx, rfl, ?_⟩
          cases hr : ans.receipt with
          | error e => exact .inl ⟨e, rfl, by simp⟩
          | ok u =>
            refine .inr ⟨rfl, ?_⟩
            cases hl : ans.lastNonce with
            | error e => exact .inl ⟨e, rfl, by simp⟩
            | ok n => exact .inr ⟨n, rfl, by simp⟩
    · exact .inr (.inl ⟨n, rfl, hn, by simp [hn]⟩)

/-- For two valsets with the new nonce above the old, any confirmations and any answers, the
relay broadcasts at most once, right after reading the old nonce from the contract and with
signatures `order_sigs` accepted. It returns `Ok` without broadcasting when the contract is on
another nonce, returns `Ok` once the receipt arrived whatever nonce it reads after it, and
stops at the first failing step, or at a failing `order_sigs`, with that error. -/
theorem sendEthValsetUpdate_broadcasts_only_on_current_nonce
    (hnew : oldValset.nonce < newValset.nonce) :
    ((sendEthValsetUpdate orderSigs encodeValsetConfirmHashed newValset oldValset confirms timeout
        peggyContractAddress peggyId ethAddress ans).calls.filter ValsetCall.isSend).length ≤ 1 ∧
    (∀ e ∈ (sendEthValsetUpdate orderSigs encodeValsetConfirmHashed newValset oldValset confirms
        timeout peggyContractAddress peggyId ethAddress ans).calls, e.isSend →
      (sendEthValsetUpdate orderSigs encodeValsetConfirmHashed newValset oldValset confirms timeout
          peggyContractAddress peggyId ethAddress ans).calls[0]? =
        some (.getValsetNonce peggyContractAddress ethAddress (.ok oldValset.nonce)) ∧
      (sendEthValsetUpdate orderSigs encodeValsetConfirmHashed newValset oldValset confirms timeout
          peggyContractAddress peggyId ethAddress ans).calls[1]? = some e ∧
      ∃ out payload,
        orderSigs oldValset (encodeValsetConfirmHashed peggyId newValset) confirms = .ok out ∧
        encodeValsetPayload orderSigs encodeValsetConfirmHashed newValset oldValset confirms
          peggyId = .ok payload ∧
        e = .sendTransaction peggyContractAddress payload 0 ethAddress ans.txid) ∧
    (∀ n, ans.beforeNonce = .ok n → n ≠ oldValset.nonce →
      sendEthValsetUpdate orderSigs encodeValsetConfirmHashed newValset oldValset confirms timeout
          peggyContractAddress peggyId ethAddress ans =
        ⟨[.getValsetNonce peggyContractAddress ethAddress (.ok n)], some (.ok ())⟩) ∧
    (∀ tx, .waitForTransaction tx timeout (.ok ()) ∈
        (sendEthValsetUpdate orderSigs encodeValsetConfirmHashed newValset oldValset confirms
          timeout peggyContractAddress peggyId ethAddress ans).calls →
      ∀ n, ans.lastNonce = .ok n →
        (sendEthValsetUpdate orderSigs encodeValsetConfirmHashed newValset oldValset confirms
          timeout peggyContractAddress peggyId ethAddress ans).ret = some (.ok ())) ∧
    (∀ e ∈ (sendEthValsetUpdate orderSigs encodeValsetConfirmHashed newValset oldValset confirms
        timeout peggyContractAddress peggyId ethAddress ans).calls.dropLast, e.failure = none) ∧
    (∀ err, ((sendEthValsetUpdate orderSigs encodeValsetConfirmHashed newValset oldValset confirms
        timeout peggyContractAddress peggyId ethAddress ans).calls.getLast?.bind
          ValsetCall.failure) = some err →
      (sendEthValsetUpdate orderSigs encodeValsetConfirmHashed newValset oldValset confirms timeout
        peggyContractAddress peggyId ethAddress ans).ret = some (.error err)) ∧
    (∀ err, ans.beforeNonce = .ok oldValset.nonce →
      orderSigs oldValset (encodeValsetConfirmHashed peggyId newValset) confirms = .error err →
      sendEthValsetUpdate orderSigs encodeValsetConfirmHashed newValset oldValset confirms timeout
          peggyContractAddress peggyId ethAddress ans =
        ⟨[.getValsetNonce peggyContractAddress ethAddress (.ok oldValset.nonce)],
          some (.error err)⟩) := by
  have hc := sendEthValsetUpdate_cases orderSigs encodeValsetConfirmHashed newValset oldValset
    confirms timeout peggyContractAddress peggyId ethAddress ans hnew
  dsimp only at hc
  generalize sendEthValsetUpdate orderSigs encodeValsetConfirmHashed newValset oldValset confirms
    timeout peggyContractAddress peggyId ethAddress ans = run at hc ⊢
  rcases hc with ⟨e, hb, rfl⟩ | ⟨n, hb, hn, rfl⟩ | ⟨e, hb, he, rfl⟩ | ⟨payload, hb, he, hrest⟩
  · simp_all
  · simp_all
  · rw [encodeValsetPayload_eq_error] at he
    simp_all
  · obtain ⟨out, hout, -⟩ := (encodeValsetPayload_eq_ok orderSigs encodeValsetConfirmHashed).1 he
    rcases hrest with ⟨e, ht, rfl⟩ | ⟨tx, ht, ⟨e, hr, rfl⟩ | ⟨hr, ⟨e, hl, rfl⟩ | ⟨n, hl, rfl⟩⟩⟩ <;>
      simp_all

section SpecOrderSigs
variable (threshold : Nat) (recover : Hash → EthSignature → Option EthAddress) {p : UpdateValset}

/-- With `order_sigs` as the spec describes it, the `updateValset` arguments line up for every
pair of valsets: the current and new validators and powers are those of the members with an
address, and the signature columns have one entry per current validator, its signature over the
new valset's hash or zeros. -/
theorem encodeValsetPayload_aligned
    (hp : encodeValsetPayload (Valset.orderSigs threshold recover) encodeValsetConfirmHashed
      newValset oldValset confirms peggyId = .ok p) :
    (p.currentValidators, p.currentPowers) = oldValset.filterEmptyAddresses ∧
    p.currentValsetNonce = oldValset.nonce ∧
    (p.newValidators, p.newPowers) = newValset.filterEmptyAddresses ∧
    p.newValsetNonce = newValset.nonce ∧
    p.v.length = p.currentValidators.length ∧ p.r.length = p.currentValidators.length ∧
    p.s.length = p.currentValidators.length ∧
    ∀ (i : Nat) a, p.currentValidators[i]? = some a →
      let sig := (signatureBy recover (encodeValsetConfirmHashed peggyId newValset) confirms
        a).getD .zero
      p.v[i]? = some sig.v ∧ p.r[i]? = some sig.r ∧ p.s[i]? = some sig.s := by
  obtain ⟨out, hout, rfl⟩ := (encodeValsetPayload_eq_ok _ _).1 hp
  rw [Valset.orderSigs_eq_ok hout, map_memberSig_filter]
  simp only [toArrays, List.map_map, List.length_map, List.getElem?_map, true_and]
  intro i a h
  simp [h]

end SpecOrderSigs

end

-- An old valset whose first member, of power 10, has no Ethereum address, and its successor.
def gappedValset : Valset := ⟨1, [⟨10, none⟩, ⟨90, some 7⟩]⟩

def nextValset : Valset := ⟨2, [⟨100, some 7⟩]⟩

def valsetNonceHash (_peggyId : String) (valset : Valset) : Hash := valset.nonce

/-- The member of address 7 signs the update over a valset whose other member has no address:
its signature stands at its position among the current validators. -/
theorem gapped_payload_aligned :
    encodeValsetPayload (Valset.orderSigs 66 recoverByR) valsetNonceHash nextValset gappedValset
        [⟨7, ⟨27, 2, 7⟩⟩] "" = .ok ⟨[7], [100], 2, [7], [90], 1, [27], [2], [7]⟩ ∧
    ([7], [90]) = gappedValset.filterEmptyAddresses ∧ 1 = gappedValset.nonce ∧
    ([7], [100]) = nextValset.filterEmptyAddresses ∧ 2 = nextValset.nonce ∧
    [27].length = [7].length ∧ [2].length = [7].length ∧ [7].length = [7].length ∧
    ∀ (i : Nat) a, [7][i]? = some a →
      let sig := (signatureBy recoverByR (valsetNonceHash "" nextValset) [⟨7, ⟨27, 2, 7⟩⟩]
        a).getD .zero
      [27][i]? = some sig.v ∧ [2][i]? = some sig.r ∧ [7][i]? = some sig.s :=
  ⟨rfl, encodeValsetPayload_aligned valsetNonceHash nextValset gappedValset [⟨7, ⟨27, 2, 7⟩⟩] ""
    66 recoverByR rfl⟩

theorem stale_valset_relay_returns_ok :
    gappedValset.nonce < nextValset.nonce ∧
    sendEthValsetUpdate (Valset.orderSigs 66 recoverByR) valsetNonceHash nextValset gappedValset []
        0 0 "" 0 ⟨.ok 2, .ok 0, .ok (), .ok 2⟩ =
      ⟨[.getValsetNonce 0 0 (.ok 2)], some (.ok ())⟩ :=
  ⟨by decide, (sendEthValsetUpdate_broadcasts_only_on_current_nonce (Valset.orderSigs 66 recoverByR)
    valsetNonceHash nextValset gappedValset [] 0 0 "" 0 ⟨.ok 2, .ok 0, .ok (), .ok 2⟩
    (by decide)).2.2.1 2 rfl (by decide)⟩

end Peggy
