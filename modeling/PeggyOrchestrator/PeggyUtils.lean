import PeggyOrchestrator.Types
set_option autoImplicit false

/-!
The helpers of `peggy_utils` and `ethereum_peggy` that the watcher and the relayers call.
Their code is not in this repository's sources, so each is modelled from the spec.
-/

namespace Peggy

/-- Modelled from the spec: `filter_by_event_nonce` of the `peggy_utils` event types is not
under src/. §4.4 step 6: "Filter each decoded list to entries with `event_nonce >
last_event_nonce`", keeping their order. -/
def filterByEventNonce (eventNonce : Nat) (input : List Event) : List Event :=
  input.filter fun item => eventNonce < item.eventNonce

@[simp] theorem mem_filterByEventNonce {n : Nat} {input : List Event} {e : Event} :
    e ∈ filterByEventNonce n input ↔ e ∈ input ∧ n < e.eventNonce := by
  simp [filterByEventNonce]

/-- Modelled from the spec: `Valset::filter_empty_addresses` is not under src/. §3: "Empty
/zero-address entries are filtered before hashing or encoding": the addresses and the
powers of the members that have an address, in the valset's order. -/
def Valset.filterEmptyAddresses (v : Valset) : List EthAddress × List Nat :=
  let set := v.members.filterMap fun m => m.ethAddress.map fun a => (a, m.power)
  (set.map Prod.fst, set.map Prod.snd)

/-- The signature of the first confirmation by `a` whose signature recovers to `a` over `hash`. -/
def signatureBy (recover : Hash → EthSignature → Option EthAddress) (hash : Hash)
    (confirms : List Confirm) (a : EthAddress) : Option EthSignature :=
  (confirms.find? fun c => c.ethAddress = a ∧ recover hash c.signature = some a).map
    Confirm.signature

def memberSig (recover : Hash → EthSignature → Option EthAddress) (hash : Hash)
    (confirms : List Confirm) (m : ValsetMember) : Option EthSignature :=
  m.ethAddress.bind (signatureBy recover hash confirms)

/-- Modelled from the spec: `Valset::order_sigs` is not under src/. §3: entries without an
address are filtered before hashing or encoding. §4.3 and §8.3: for each remaining member in
the valset's order, the signature by that member over `hash`, or the all-zero triple when there
is none; it fails when the power of the members whose signature is present is below the
contract's `threshold`. `recover` is ECDSA public-key recovery. -/
def Valset.orderSigs (threshold : Nat) (recover : Hash → EthSignature → Option EthAddress)
    (v : Valset) (hash : Hash) (confirms : List Confirm) :
    Except PeggyError (List EthSignature) :=
  let members := v.members.filter fun m => m.ethAddress.isSome
  let sigs := members.map (memberSig recover hash confirms)
  let power := ((members.filter fun m => (memberSig recover hash confirms m).isSome).map
    ValsetMember.power).sum
  if power < threshold then .error (.insufficientVotingPowerToPass "insufficient voting power")
  else .ok (sigs.map fun s => s.getD .zero)

theorem Valset.orderSigs_eq_ok {threshold : Nat} {recover : Hash → EthSignature → Option EthAddress}
    {v : Valset} {hash : Hash} {confirms : List Confirm} {out : List EthSignature}
    (h : v.orderSigs threshold recover hash confirms = .ok out) :
    out = (v.members.filter fun m => m.ethAddress.isSome).map fun m =>
      (memberSig recover hash confirms m).getD .zero := by
  simp only [Valset.orderSigs] at h
  split at h
  · cases h
  · simpa [eq_comm] using h

theorem map_memberSig_filter (recover : Hash → EthSignature → Option EthAddress) (hash : Hash)
    (confirms : List Confirm) (v : Valset) :
    (v.members.filter fun m => m.ethAddress.isSome).map
        (fun m => (memberSig recover hash confirms m).getD .zero) =
      v.filterEmptyAddresses.1.map fun a => (signatureBy recover hash confirms a).getD .zero := by
  simp only [Valset.filterEmptyAddresses]
  generalize v.members = ms
  induction ms with
  | nil => rfl
  | cons m ms ih => cases h : m.ethAddress <;> simp_all [List.filter_cons, memberSig]

/-- `Valset::order_sigs` as the relayers call it, with the contract's threshold and the
recovery fixed. The relayers are modelled for every function of this type. -/
abbrev OrderSigs := Valset → Hash → List Confirm → Except PeggyError (List EthSignature)

/-- A stand-in for ECDSA recovery in concrete runs: a signature recovers to the address in its
`s` column when its `r` column is the hash signed. -/
def recoverByR (hash : Hash) (sig : EthSignature) : Option EthAddress :=
  if sig.r = hash then some sig.s else none

structure SigArrays where
  v : List Nat
  r : List Nat
  s : List Nat
  deriving DecidableEq, Repr

/-- Modelled from the spec: `to_arrays` is not under src/. §4.3: `SigArrays{v[], r[], s[]}`. -/
def toArrays (sigs : List EthSignature) : SigArrays :=
  ⟨sigs.map EthSignature.v, sigs.map EthSignature.r, sigs.map EthSignature.s⟩

/-- Modelled from the spec: `GasCost::get_total` is not under src/. §3: "total = gas_units ×
gas_price", a product of two `Uint256`. -/
def GasCost.getTotal (c : GasCost) : Option Uint256 := c.gas.mul c.gasPrice

/-- Modelled from the spec: `downcast_to_u128` of `ethereum_peggy::utils` is not under src/
and the spec does not describe it; this is the narrowing its name and its `Option<u128>`
result state, `None` when the value does not fit in 128 bits. -/
def downcastToU128 (input : Uint256) : Option (Fin (2 ^ 128)) :=
  if h : input.val < 2 ^ 128 then some ⟨input.val, h⟩ else none

@[simp] theorem downcastToU128_eq_none {x : Uint256} : downcastToU128 x = none ↔ 2 ^ 128 ≤ x.val := by
  unfold downcastToU128; split <;> simp <;> omega

/-- The total of a cost cannot be logged as a `u128` exactly when `gas * gas_price` reaches
2^128, whether or not the product itself overflows. -/
theorem getTotal_bind_downcastToU128_eq_none {c : GasCost} :
    c.getTotal.bind downcastToU128 = none ↔ 2 ^ 128 ≤ c.gas.val * c.gasPrice.val := by
  unfold GasCost.getTotal Uint256.mul
  split
  · exact downcastToU128_eq_none
  · simp only [Option.none_bind, true_iff]
    omega

end Peggy
