import Mathlib
set_option autoImplicit false

/-!
The data the orchestrator's event watcher and relayers read and pass on: the `clarity`,
`deep_space` and `peggy_utils` types of `check_for_events`, `relay_batches` and
`send_eth_valset_update`. A record keeps the fields these functions read or forward.
-/

namespace Peggy

/-- `clarity::Uint256`. Its `-` and `*` panic on a result outside `0 .. 2^256 - 1`. -/
structure Uint256 where
  val : Nat
  isLt : val < 2 ^ 256
  deriving DecidableEq, Repr

namespace Uint256

def ofU8 (n : Fin 256) : Uint256 := ⟨n.val, by omega⟩

def sub (a b : Uint256) : Option Uint256 :=
  if b.val ≤ a.val then some ⟨a.val - b.val, by have := a.isLt; omega⟩ else none

def mul (a b : Uint256) : Option Uint256 :=
  if h : a.val * b.val < 2 ^ 256 then some ⟨a.val * b.val, h⟩ else none

theorem sub_eq_some {a b c : Uint256} : a.sub b = some c ↔ b.val ≤ a.val ∧ c.val = a.val - b.val := by
  unfold sub
  split
  · constructor
    · rintro ⟨⟩; exact ⟨‹_›, rfl⟩
    · rintro ⟨-, h⟩; cases c; simp_all
  · simp_all

@[simp] theorem sub_eq_none {a b : Uint256} : a.sub b = none ↔ a.val < b.val := by
  unfold sub; split <;> simp <;> omega

def min (a b : Uint256) : Uint256 := if a.val ≤ b.val then a else b

@[simp] theorem mul_eq_none {a b : Uint256} : a.mul b = none ↔ 2 ^ 256 ≤ a.val * b.val := by
  unfold mul; split <;> simp <;> omega

end Uint256

-- An Ethereum address and a `keccak256` digest by their value; a bech32 Cosmos address.
abbrev EthAddress := Nat
abbrev Hash := Nat
abbrev CosmosAddress := String

inductive Web3Error where
  | badResponse (msg : String)
  | jsonRpcError (code : Int) (message : String)
  | transactionTimeout
  deriving DecidableEq, Repr

inductive PeggyError where
  | cosmosGrpcError (msg : String)
  | ethereumRestError (e : Web3Error)
  | invalidBridgeStateError (msg : String)
  | invalidEventLogError (msg : String)
  | insufficientVotingPowerToPass (msg : String)
  | timeoutError
  deriving DecidableEq, Repr

/-- The five events of the Peggy contract the watcher scans for. -/
inductive EventKind where
  | sendToCosmos
  | transactionBatchExecuted
  | valsetUpdated
  | erc20Deployed
  | logicCallExecuted
  deriving DecidableEq, Repr

/-- The event signature `check_for_events` filters the contract's logs by. -/
def EventKind.signature : EventKind → String
  | .sendToCosmos => "SendToCosmosEvent(address,address,bytes32,uint256,uint256)"
  | .transactionBatchExecuted => "TransactionBatchExecutedEvent(uint256,address,uint256)"
  | .valsetUpdated => "ValsetUpdatedEvent(uint256,address[],uint256[])"
  | .erc20Deployed => "ERC20DeployedEvent(string,address,string,string,uint8,uint256)"
  | .logicCallExecuted => "LogicCallEvent(bytes32,uint256,bytes,uint256)"

theorem EventKind.signature_injective : Function.Injective EventKind.signature := by
  intro a b h
  cases a <;> cases b <;> first | rfl | (simp only [EventKind.signature] at h; exact absurd h (by decide))

/-- A decoded Peggy event. The watcher reads `event_nonce` only; `body` stands for the
kind's other fields (sender, amount, token, ...), which it forwards unread. -/
structure Event where
  eventNonce : Nat
  body : Nat
  deriving DecidableEq, Repr

/-- A log of the Peggy contract: the block it is in, the signature it was emitted under
and the event its topics and data encode. -/
structure Log where
  blockNumber : Nat
  kind : EventKind
  event : Event
  deriving DecidableEq, Repr

structure Coin where
  denom : String
  amount : Nat
  deriving DecidableEq, Repr

/-- The part of a Cosmos `TxResponse` the watcher reads. -/
structure TxResponse where
  txhash : String
  deriving DecidableEq, Repr

/-- `peggy_utils::types::ValsetMember`; `eth_address` is empty until the validator sets one. -/
structure ValsetMember where
  power : Nat
  ethAddress : Option EthAddress
  deriving DecidableEq, Repr

structure Valset where
  nonce : Nat
  members : List ValsetMember
  deriving DecidableEq, Repr

/-- `peggy_utils::types::TransactionBatch`; a withdrawal is kept by its id. -/
structure TransactionBatch where
  nonce : Nat
  batchTimeout : Nat
  transactions : List Nat
  totalFee : Nat
  tokenContract : EthAddress
  deriving DecidableEq, Repr

structure EthSignature where
  v : Nat
  r : Nat
  s : Nat
  deriving DecidableEq, Repr

/-- The all-zero signature, which the Peggy contract reads as absent. -/
def EthSignature.zero : EthSignature := ⟨0, 0, 0⟩

/-- What `order_sigs` reads of a `ValsetConfirmResponse` or a `BatchConfirmResponse`
through the `Confirm` trait: the signer's Ethereum address and its signature. -/
structure Confirm where
  ethAddress : EthAddress
  signature : EthSignature
  deriving DecidableEq, Repr

structure GasCost where
  gas : Uint256
  gasPrice : Uint256
  deriving DecidableEq, Repr

end Peggy
