import PeggyOrchestrator.ValsetUpdate
import PeggyOrchestrator.JsonLogger
set_option autoImplicit false

/-!
`send_eth_valset_update` with its structured-log calls: the `sinfo!` of lines 33-37 before the
first nonce read, the one of lines 45-48 when the contract is on another nonce, the one of
lines 65-68 after the broadcast, and the `serror!` of lines 78-82 or the `sinfo!` of lines
88-91 after the last nonce read. With a log file that opens, the logged run makes the plain
run's adapter calls and returns its result; with one that does not, it makes none.
-/

namespace Peggy

section
variable (ok : Bool) (orderSigs : OrderSigs) (encodeValsetConfirmHashed : String → Valset → Hash)
  (newValset oldValset : Valset) (confirms : List Confirm) (timeout : Nat)
  (peggyContractAddress : EthAddress) (peggyId : String) (ethAddress : EthAddress)
  (ans : ValsetAnswers)

/-- `send_eth_valset_update` with its structured-log calls; `ok` is whether `LOGGING` returns.
The last nonce read, which the plain run only checks for an error, picks the log call. -/
def sendEthValsetUpdateLogged : Io (Logged ValsetCall) (Except PeggyError Unit) := do
  let oldNonce := oldValset.nonce
  let newNonce := newValset.nonce
  unless newNonce > oldNonce do Io.panic
  Io.slog ok "ORDERING_SIGNATURES_AND_SUBMITTING_VALIDATOR"
  let beforeNonce ← Io.adapter (.getValsetNonce peggyContractAddress ethAddress) ans.beforeNonce
  match beforeNonce with
  | .error e => return .error e
  | .ok beforeNonce =>
    if beforeNonce ≠ oldNonce then
      Io.slog ok "SOMEONE_ELSE_UPDATED_THE_VALSET"
      return .ok ()
    else
      match encodeValsetPayload orderSigs encodeValsetConfirmHashed newValset oldValset confirms
          peggyId with
      | .error e => return .error e
      | .ok payload =>
        let tx ← Io.adapter (.sendTransaction peggyContractAddress payload 0 ethAddress) ans.txid
        match tx with
        | .error e => return .error (.ethereumRestError e)
        | .ok tx =>
          Io.slog ok "SENT_VALSET_UPDATE_WITH_TXI"
          let receipt ← Io.adapter (.waitForTransaction tx timeout) ans.receipt
          match receipt with
          | .error e => return .error (.ethereumRestError e)
          | .ok () =>
            let lastNonce ← Io.adapter (.getValsetNonce peggyContractAddress ethAddress)
              ans.lastNonce
            match lastNonce with
            | .error e => return .error e
            | .ok lastNonce =>
              if lastNonce ≠ newNonce then Io.slog ok "CURRENT_NONCE_IS_FAILED"
              else Io.slog ok "SUCCESSFULLY_UPDATED_VALSET_WITH_NEW_NONCE"
              return .ok ()

end

section
variable (orderSigs : OrderSigs) (encodeValsetConfirmHashed : String → Valset → Hash)
  (newValset oldValset : Valset) (confirms : List Confirm) (timeout : Nat)
  (peggyContractAddress : EthAddress) (peggyId : String) (ethAddress : EthAddress)
  (ans : ValsetAnswers)

/-- With `LOGGING` returning, the logged run makes the plain run's adapter calls and returns its
result. -/
theorem erase_sendEthValsetUpdateLogged_true :
    (sendEthValsetUpdateLogged true orderSigs encodeValsetConfirmHashed newValset oldValset
        confirms timeout peggyContractAddress peggyId ethAddress ans).erase =
      sendEthValsetUpdate orderSigs encodeValsetConfirmHashed newValset oldValset confirms timeout
        peggyContractAddress peggyId ethAddress ans := by
  by_cases hgt : newValset.nonce > oldValset.nonce
  · simp only [sendEthValsetUpdateLogged, sendEthValsetUpdate, hgt, not_true_eq_false,
      ↓reduceIte, Io.pure_bind, Io.erase_slog_true_bind, Io.erase_adapter_bind]
    congr 1; funext b
    cases b with
    | error e => rfl
    | ok n =>
      dsimp only
      split
      · rfl
      cases encodeValsetPayload orderSigs encodeValsetConfirmHashed newValset oldValset confirms
        peggyId with
      | error e => rfl
      | ok payload =>
        simp only [Io.erase_adapter_bind]
        congr 1; funext t
        cases t with
        | error e => rfl
        | ok tx =>
          simp only [Io.erase_slog_true_bind, Io.erase_adapter_bind]
          congr 1; funext r
          cases r with
          | error e => rfl
          | ok u =>
            simp only [Io.erase_adapter_bind]
            congr 1; funext l
            cases l with
            | error e => rfl
            | ok m => dsimp only; split <;> rfl
  · simp only [sendEthValsetUpdateLogged, sendEthValsetUpdate, hgt, ↓reduceIte, Io.panic_bind]
    rfl

/-- With `LOGGING` panicking, the run panics before its first adapter call, whatever the
validator sets and the answers. -/
theorem erase_sendEthValsetUpdateLogged_false :
    (sendEthValsetUpdateLogged false orderSigs encodeValsetConfirmHashed newValset oldValset
      confirms timeout peggyContractAddress peggyId ethAddress ans).erase = ⟨[], none⟩ := by
  by_cases hgt : newValset.nonce > oldValset.nonce
  · simp only [sendEthValsetUpdateLogged, hgt, ↓reduceIte, Io.pure_bind, Io.slog_false_bind]
    rfl
  · simp only [sendEthValsetUpdateLogged, hgt, ↓reduceIte, Io.panic_bind]
    rfl

theorem sendEthValsetUpdateLogged_loggedBefore (ok : Bool) :
    LoggedBefore (·.isSend) (sendEthValsetUpdateLogged ok orderSigs encodeValsetConfirmHashed
      newValset oldValset confirms timeout peggyContractAddress peggyId ethAddress ans).calls := by
  by_cases hgt : newValset.nonce > oldValset.nonce
  · simp only [sendEthValsetUpdateLogged, hgt, not_true_eq_false, ↓reduceIte, Io.pure_bind]
    cases ok
    · simp only [Io.slog_false_bind]
      exact .of_forall (by simp)
    · exact .returned_cons _ _
  · simp only [sendEthValsetUpdateLogged, hgt, ↓reduceIte, Io.panic_bind]
    exact .of_forall (by simp)

theorem sendEthValsetUpdateLogged_erase_prefix_plain (ok : Bool) :
    (sendEthValsetUpdateLogged ok orderSigs encodeValsetConfirmHashed newValset oldValset confirms
        timeout peggyContractAddress peggyId ethAddress ans).erase.calls <+:
      (sendEthValsetUpdate orderSigs encodeValsetConfirmHashed newValset oldValset confirms
        timeout peggyContractAddress peggyId ethAddress ans).calls := by
  cases ok
  · rw [erase_sendEthValsetUpdateLogged_false]
    exact List.nil_prefix
  · rw [erase_sendEthValsetUpdateLogged_true]

end

end Peggy
