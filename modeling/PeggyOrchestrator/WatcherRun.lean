import PeggyOrchestrator.EventWatcher
set_option autoImplicit false

/-!
The event watcher's loop against one Ethereum log and one native chain. Each cycle runs
`check_for_events` from the loop's starting block; the loop starts the next cycle at the
block an `Ok` returned, and at the same block after an `Err`. The native chain moves this
validator's last event nonce only by applying the claims the cycle submitted.
-/

namespace Peggy

/-- The Ethereum log in (block, log index) order: blocks never go down, and the events the
watcher claims carry strictly increasing event nonces. -/
structure OrderedLog (log : List Log) : Prop where
  blocks : log.Pairwise fun a b => a.blockNumber ≤ b.blockNumber
  nonces : (log.filter fun l => l.kind ≠ .valsetUpdated).Pairwise
    fun a b => a.event.eventNonce < b.event.eventNonce

def logsIn (log : List Log) (a b : Uint256) (k : EventKind) : List Log :=
  log.filter fun l => l.kind = k ∧ a.val ≤ l.blockNumber ∧ l.blockNumber ≤ b.val

/-- `from_logs` decodes the events the logs carry, or fails. -/
def FaithfulDecode (fromLogs : EventKind → List Log → Except PeggyError (List Event)) : Prop :=
  ∀ k logs evs, fromLogs k logs = .ok evs → evs = logs.map Log.event

structure WatcherState where
  startingBlock : Uint256
  lastEventNonce : Nat

def Claims.nonces (c : Claims) : List Nat :=
  (c.deposits ++ c.withdraws ++ c.erc20Deploys ++ c.logicCalls).map Event.eventNonce

/-- The native chain applies the claims of a message in nonce order up to some point: the
validator's last event nonce stays, or moves to the nonce of the last claim applied. -/
def AppliesPrefix (n : Nat) (c : Claims) (n' : Nat) : Prop := n' = n ∨ n' ∈ c.nonces

/-- The native chain applies all the claims of a message or none of them. -/
def AppliesAllOrNone (n : Nat) (c : Claims) (n' : Nat) : Prop :=
  n' = n ∨ n' ∈ c.nonces ∧ ∀ m ∈ c.nonces, m ≤ n'

def WatcherState.next (st : WatcherState) (r : Except PeggyError Uint256) (n' : Nat) :
    WatcherState :=
  ⟨match r with | .ok latest => latest | .error _ => st.startingBlock, n'⟩

section
variable (log : List Log) (fromLogs : EventKind → List Log → Except PeggyError (List Event))
  (c : EthAddress) (addr : CosmosAddress) (fee : Coin)

/-- One cycle of the loop: the queries answer from `log` or fail, both nonce reads answer the
chain's nonce of the moment or fail, and the chain answers the claims message by `applies`. -/
inductive Cycle (applies : Nat → Claims → Nat → Prop) : WatcherState → WatcherState → Prop
  | mk (st : WatcherState) (ans : WatcherAnswers) (n' : Nat) (r : Except PeggyError Uint256)
      (hlogs : ∀ a b cs k logs, WatcherCall.checkForEvents a b cs [k.signature] (.ok logs) ∈
        (checkForEvents fromLogs c addr fee st.startingBlock ans).calls → logs = logsIn log a b k)
      (hread : ∀ n, ans.lastEventNonce = .ok n → n = st.lastEventNonce)
      (happly : ∀ cl ∈ sentClaims (checkForEvents fromLogs c addr fee st.startingBlock ans).calls,
        applies st.lastEventNonce cl n')
      (hstay : sentClaims (checkForEvents fromLogs c addr fee st.startingBlock ans).calls = [] →
        n' = st.lastEventNonce)
      (hreread : ∀ n, ans.newEventNonce = .ok n → n = n')
      (hret : (checkForEvents fromLogs c addr fee st.startingBlock ans).ret = some r) :
      Cycle applies st (st.next r n')

/-- The event the native chain expects next from this validator, if the log has it, lies at
or after the loop's starting block. -/
def NoGap (st : WatcherState) : Prop :=
  ∀ l ∈ log, l.kind ≠ .valsetUpdated → l.event.eventNonce = st.lastEventNonce + 1 →
    st.startingBlock.val ≤ l.blockNumber

end

theorem rel_of_pairwise_of_lt {α : Type} {f : α → Nat} {R : α → α → Prop} :
    ∀ {l : List α}, l.Pairwise (fun a b => f a < f b ∧ R a b) →
      ∀ {x y : α}, x ∈ l → y ∈ l → f x < f y → R x y
  | a :: t, h, x, y, hx, hy, hlt => by
    rw [List.pairwise_cons] at h
    cases hx with
    | head =>
      cases hy with
      | head => omega
      | tail _ hy => exact (h.1 y hy).2
    | tail _ hx =>
      cases hy with
      | head => exact absurd (h.1 x hx).1 (by omega)
      | tail _ hy => exact rel_of_pairwise_of_lt h.2 hx hy hlt

theorem OrderedLog.block_le {log : List Log} (h : OrderedLog log) {x l : Log} (hx : x ∈ log)
    (hl : l ∈ log) (hxk : x.kind ≠ .valsetUpdated) (hlk : l.kind ≠ .valsetUpdated)
    (hlt : x.event.eventNonce < l.event.eventNonce) : x.blockNumber ≤ l.blockNumber :=
  @rel_of_pairwise_of_lt Log (fun l => l.event.eventNonce) _ _
    (h.nonces.and (h.blocks.sublist (List.filter_sublist _))) _ _ (by simpa using And.intro hx hxk)
    (by simpa using And.intro hl hlk) hlt

theorem Claims.eq_empty_iff (cl : Claims) : cl = .empty ↔ cl.nonces = [] := by
  cases cl; simp [Claims.empty, Claims.nonces]

theorem mem_nonces_claimsAbove_logsIn {log : List Log} {a b : Uint256} {n m : Nat} :
    m ∈ (claimsAbove n fun k => (logsIn log a b k).map Log.event).nonces ↔
      ∃ l ∈ log, l.kind ≠ .valsetUpdated ∧ a.val ≤ l.blockNumber ∧ l.blockNumber ≤ b.val ∧
        n < l.event.eventNonce ∧ l.event.eventNonce = m := by
  simp only [Claims.nonces, claimsAbove, logsIn, List.map_append, List.mem_append, List.mem_map,
    List.mem_filter, decide_eq_true_eq]
  constructor
  · rintro (((⟨e, ⟨⟨l, ⟨hl, hk, hr⟩, rfl⟩, hn⟩, rfl⟩ | ⟨e, ⟨⟨l, ⟨hl, hk, hr⟩, rfl⟩, hn⟩, rfl⟩) |
      ⟨e, ⟨⟨l, ⟨hl, hk, hr⟩, rfl⟩, hn⟩, rfl⟩) | ⟨e, ⟨⟨l, ⟨hl, hk, hr⟩, rfl⟩, hn⟩, rfl⟩) <;>
      exact ⟨l, hl, by simp [hk], hr.1, hr.2, hn, rfl⟩
  · rintro ⟨l, hl, hk, ha, hb, hn, rfl⟩
    cases h : l.kind
    · exact .inl (.inl (.inl ⟨l.event, ⟨⟨l, ⟨hl, h, ha, hb⟩, rfl⟩, hn⟩, rfl⟩))
    · exact .inl (.inl (.inr ⟨l.event, ⟨⟨l, ⟨hl, h, ha, hb⟩, rfl⟩, hn⟩, rfl⟩))
    · exact absurd h hk
    · exact .inl (.inr ⟨l.event, ⟨⟨l, ⟨hl, h, ha, hb⟩, rfl⟩, hn⟩, rfl⟩)
    · exact .inr ⟨l.event, ⟨⟨l, ⟨hl, h, ha, hb⟩, rfl⟩, hn⟩, rfl⟩

theorem mem_queryCalls (c : EthAddress) (s latest : Uint256) (ans : WatcherAnswers) (k : EventKind) :
    WatcherCall.checkForEvents s latest [c] [k.signature] (ans.logs k) ∈ queryCalls c s latest ans :=
  List.mem_map.2 ⟨k, EventKind.mem_queryOrder k, rfl⟩

section
variable {log : List Log} {fromLogs : EventKind → List Log → Except PeggyError (List Event)}
  {c : EthAddress} {addr : CosmosAddress} {fee : Coin} {s : Uint256} {ans : WatcherAnswers}

theorem decoded_eq_logsIn (hdec : FaithfulDecode fromLogs) {latest : Uint256} {x y : WatcherCall}
    {rest : List WatcherCall} {logs : EventKind → List Log} {dec : DecodedEvents}
    (hlogs : ∀ a b cs k logs, WatcherCall.checkForEvents a b cs [k.signature] (.ok logs) ∈
      x :: y :: queryCalls c s latest ans ++ rest → logs = logsIn log a b k)
    (hl : ∀ k, ans.logs k = .ok (logs k)) (hd : ∀ k, fromLogs k (logs k) = .ok (dec.get k)) :
    dec.get = fun k => (logsIn log s latest k).map Log.event := by
  funext k
  have hk := hlogs s latest [c] k (logs k) (by rw [← hl k]; simp [mem_queryCalls])
  rw [hdec _ _ _ (hd k), hk]

variable (hdec : FaithfulDecode fromLogs)
  (hlogs : ∀ a b cs k logs, WatcherCall.checkForEvents a b cs [k.signature] (.ok logs) ∈
    (checkForEvents fromLogs c addr fee s ans).calls → logs = logsIn log a b k)
include hdec hlogs

theorem sentClaims_from_log :
    ∀ cl ∈ sentClaims (checkForEvents fromLogs c addr fee s ans).calls, ∃ latest n0,
      ans.lastEventNonce = .ok n0 ∧
      cl = claimsAbove n0 fun k => (logsIn log s latest k).map Log.event := by
  intro cl hcl
  cases hsub : ans.latestBlock.sub (blockDelay ans.netVersion) with
  | none =>
    rw [checkForEvents_of_underflow fromLogs c addr fee s ans (Uint256.sub_eq_none.1 hsub)] at hcl
    simp [WatcherCall.claims] at hcl
  | some latest =>
    rcases checkForEvents_scan fromLogs c addr fee s ans latest hsub with
      ⟨logs, dec, hl, hd, hrun⟩ | ⟨-, e, hrun⟩ <;> rw [hrun] at hcl hlogs
    · have hget := decoded_eq_logsIn hdec hlogs hl hd
      simp only [sentClaims_cons, sentClaims_append, sentClaims_queryCalls,
        sentClaims_submitNewClaims, WatcherCall.claims, hget] at hcl
      cases hn : ans.lastEventNonce with
      | error e => simp [hn] at hcl
      | ok n0 =>
        refine ⟨latest, n0, rfl, ?_⟩
        simp only [hn] at hcl
        split at hcl
        · exact absurd hcl (List.not_mem_nil _)
        · exact List.mem_singleton.1 hcl
    · simp [WatcherCall.claims] at hcl

/-- A run against `log` that returns `Ok latest` has scanned `[s, latest]`, read some nonce
`n0`, and either found nothing above it or submitted it all and seen the nonce move. -/
theorem ok_from_log {latest : Uint256}
    (h : (checkForEvents fromLogs c addr fee s ans).ret = some (.ok latest)) :
    ∃ n0, ans.lastEventNonce = .ok n0 ∧
      let cl := claimsAbove n0 fun k => (logsIn log s latest k).map Log.event
      (cl = .empty ∧ sentClaims (checkForEvents fromLogs c addr fee s ans).calls = []) ∨
        (sentClaims (checkForEvents fromLogs c addr fee s ans).calls = [cl] ∧
          ∃ n1, ans.newEventNonce = .ok n1 ∧ n1 ≠ n0) := by
  cases hsub : ans.latestBlock.sub (blockDelay ans.netVersion) with
  | none =>
    simp [(checkForEvents_ret_eq_none_iff fromLogs c addr fee s ans).2
      (Uint256.sub_eq_none.1 hsub)] at h
  | some latest' =>
    rcases checkForEvents_scan fromLogs c addr fee s ans latest' hsub with
      ⟨logs, dec, hl, hd, hrun⟩ | ⟨-, e, hrun⟩ <;> rw [hrun] at h hlogs ⊢
    · obtain ⟨rfl, n0, hn, hcase⟩ := submitNewClaims_ret_ok addr fee ans latest' dec h
      have hget := decoded_eq_logsIn hdec hlogs hl hd
      simp only [sentClaims_cons, sentClaims_append, sentClaims_queryCalls,
        sentClaims_submitNewClaims, WatcherCall.claims, hn, ← hget]
      refine ⟨n0, rfl, ?_⟩
      by_cases he : claimsAbove n0 dec.get = .empty
      · simp [he]
      · simpa [he] using hcase
    · simp at h

end

section
variable {log : List Log} {fromLogs : EventKind → List Log → Except PeggyError (List Event)}
  {c : EthAddress} {addr : CosmosAddress} {fee : Coin}

theorem AppliesAllOrNone.appliesPrefix {n n' : Nat} {cl : Claims} (h : AppliesAllOrNone n cl n') :
    AppliesPrefix n cl n' :=
  h.imp_right And.left

/-- A cycle leaves the chain's nonce where it was, or on the nonce of a claimable event of the
log above it, at or after the cycle's starting block. -/
theorem Cycle.nonce_cases {applies : Nat → Claims → Nat → Prop}
    (happ : ∀ {n cl n'}, applies n cl n' → AppliesPrefix n cl n') (hdec : FaithfulDecode fromLogs)
    {st st' : WatcherState} (h : Cycle log fromLogs c addr fee applies st st') :
    st'.lastEventNonce = st.lastEventNonce ∨ ∃ l ∈ log, l.kind ≠ .valsetUpdated ∧
      st.startingBlock.val ≤ l.blockNumber ∧ st.lastEventNonce < l.event.eventNonce ∧
      st'.lastEventNonce = l.event.eventNonce := by
  cases h with
  | mk ans n' r hlogs hread happly hstay =>
  show n' = _ ∨ ∃ l ∈ log, _ ∧ _ ∧ _ ∧ n' = _
  cases hs : sentClaims (checkForEvents fromLogs c addr fee st.startingBlock ans).calls with
  | nil => exact .inl (hstay hs)
  | cons cl _ =>
    have hcl : cl ∈ sentClaims _ := hs ▸ List.mem_cons_self cl _
    rcases happ (happly cl hcl) with h | h
    · exact .inl h
    · obtain ⟨latest, n0, hn, rfl⟩ := sentClaims_from_log hdec hlogs cl hcl
      obtain rfl := hread n0 hn
      obtain ⟨l, hl, hk, ha, -, hlt, rfl⟩ := mem_nonces_claimsAbove_logsIn.1 h
      exact .inr ⟨l, hl, hk, ha, hlt, rfl⟩

/-- After a cycle against an all-or-none chain, every claimable event of the log from the old
starting block up to the new one is applied. -/
theorem Cycle.applied_below (hdec : FaithfulDecode fromLogs) {st st' : WatcherState}
    (h : Cycle log fromLogs c addr fee AppliesAllOrNone st st') :
    ∀ l ∈ log, l.kind ≠ .valsetUpdated → st.startingBlock.val ≤ l.blockNumber →
      l.blockNumber < st'.startingBlock.val → l.event.eventNonce ≤ st'.lastEventNonce := by
  cases h with
  | mk ans n' r hlogs hread happly hstay hreread hret =>
  intro l hl hk hs hlt
  cases r with
  | error e => simp only [WatcherState.next] at hlt; omega
  | ok latest =>
    simp only [WatcherState.next] at hlt ⊢
    obtain ⟨n0, hn, hcase⟩ := ok_from_log hdec hlogs hret
    obtain rfl := hread n0 hn
    have hin : st.lastEventNonce < l.event.eventNonce → l.event.eventNonce ∈
        (claimsAbove st.lastEventNonce fun k => (logsIn log st.startingBlock latest k).map
          Log.event).nonces := fun hgt =>
      mem_nonces_claimsAbove_logsIn.2 ⟨l, hl, hk, hs, hlt.le, hgt, rfl⟩
    rcases hcase with ⟨hempty, hsent⟩ | ⟨hsent, n1, hn1, hne⟩
    · rw [hstay hsent]
      by_contra hgt
      rw [Claims.eq_empty_iff] at hempty
      simpa [hempty] using hin (by omega)
    · obtain rfl := hreread n1 hn1
      rcases happly _ (hsent ▸ List.mem_singleton_self _) with h | ⟨hmem, hmax⟩
      · exact absurd h hne
      · by_cases hgt : st.lastEventNonce < l.event.eventNonce
        · exact hmax _ (hin hgt)
        · obtain ⟨x, -, -, -, -, hlt', hx⟩ := mem_nonces_claimsAbove_logsIn.1 hmem
          omega

/-- Against an all-or-none chain, a cycle keeps the next expected event at or after the
starting block. -/
theorem Cycle.noGap (hord : OrderedLog log) (hdec : FaithfulDecode fromLogs)
    {st st' : WatcherState} (h : Cycle log fromLogs c addr fee AppliesAllOrNone st st')
    (hinv : NoGap log st) : NoGap log st' := by
  intro l hl hk hnonce
  have hs : st.startingBlock.val ≤ l.blockNumber := by
    rcases h.nonce_cases AppliesAllOrNone.appliesPrefix hdec with heq | ⟨x, hx, hxk, hxs, -, heq⟩
    · exact hinv l hl hk (by rw [hnonce, heq])
    · exact hxs.trans (hord.block_le hx hl hxk hk (by omega))
  by_contra hlt
  have := h.applied_below hdec l hl hk hs (not_le.1 hlt)
  omega

/-- Against an all-or-none chain, every state the loop reaches from one without a gap has none. -/
theorem noGap_of_reachable (hord : OrderedLog log) (hdec : FaithfulDecode fromLogs)
    {st st' : WatcherState}
    (hrun : Relation.ReflTransGen (Cycle log fromLogs c addr fee AppliesAllOrNone) st st')
    (h0 : NoGap log st) : NoGap log st' := by
  induction hrun with
  | refl => exact h0
  | tail _ hc ih => exact hc.noGap hord hdec ih

/-- Against a native chain that applies a prefix of each claims message, this validator's last
event nonce never goes down over a run of cycles. -/
theorem lastEventNonce_le_of_reachable {applies : Nat → Claims → Nat → Prop}
    (happ : ∀ {n cl n'}, applies n cl n' → AppliesPrefix n cl n') (hdec : FaithfulDecode fromLogs)
    {st st' : WatcherState}
    (hrun : Relation.ReflTransGen (Cycle log fromLogs c addr fee applies) st st') :
    st.lastEventNonce ≤ st'.lastEventNonce := by
  induction hrun with
  | refl => exact le_rfl
  | tail _ hc ih => rcases hc.nonce_cases happ hdec with h | ⟨l, -, -, -, hlt, h⟩ <;> omega

/-- Against a native chain that applies each claims message whole or not at all, the event it
expects next lies at or after the loop's starting block: at the start from block 0, after
every cycle, and so in every state the loop reaches. -/
theorem watcher_loop_keeps_next_event_ahead (hord : OrderedLog log) (hdec : FaithfulDecode fromLogs) :
    (∀ n, NoGap log ⟨.ofU8 0, n⟩) ∧
    (∀ st st', NoGap log st → Cycle log fromLogs c addr fee AppliesAllOrNone st st' →
      NoGap log st') ∧
    ∀ n st, Relation.ReflTransGen (Cycle log fromLogs c addr fee AppliesAllOrNone) ⟨.ofU8 0, n⟩ st →
      NoGap log st :=
  ⟨fun _ _ _ _ _ => Nat.zero_le _, fun _ _ h hc => hc.noGap hord hdec h,
    fun _ _ hrun => noGap_of_reachable hord hdec hrun fun _ _ _ _ => Nat.zero_le _⟩

end

-- Two deposits in block 5, with event nonces 1 and 2, and a `from_logs` that decodes every log.
def twoDeposits : List Log := [⟨5, .sendToCosmos, ⟨1, 0⟩⟩, ⟨5, .sendToCosmos, ⟨2, 0⟩⟩]

def decodeEvents : EventKind → List Log → Except PeggyError (List Event) :=
  fun _ logs => .ok (logs.map Log.event)

theorem twoDeposits_ordered : OrderedLog twoDeposits := ⟨by decide, by decide⟩

theorem decodeEvents_faithful : FaithfulDecode decodeEvents := fun _ _ _ h => by
  cases h; rfl

-- A cycle on mainnet from block 0 at head 16, so scanning blocks 0 to 10: it reads nonce 0,
-- submits both deposits, and reads `n` afterwards.
def twoDepositsAnswers (n : Nat) : WatcherAnswers :=
  ⟨⟨16, by omega⟩, 1, fun k => .ok (logsIn twoDeposits ⟨0, by omega⟩ ⟨10, by omega⟩ k), .ok 0,
    .ok ⟨"0x1"⟩, .ok n⟩

theorem twoDeposits_cycle (applies : Nat → Claims → Nat → Prop) (n : Nat)
    (happ : applies 0 ⟨[⟨1, 0⟩, ⟨2, 0⟩], [], [], []⟩ n)
    (hsent : sentClaims (checkForEvents decodeEvents 0 "" ⟨"", 0⟩ ⟨0, by omega⟩
      (twoDepositsAnswers n)).calls = [⟨[⟨1, 0⟩, ⟨2, 0⟩], [], [], []⟩])
    (hret : (checkForEvents decodeEvents 0 "" ⟨"", 0⟩ ⟨0, by omega⟩ (twoDepositsAnswers n)).ret =
      some (.ok ⟨10, by omega⟩)) :
    Cycle twoDeposits decodeEvents 0 "" ⟨"", 0⟩ applies ⟨⟨0, by omega⟩, 0⟩ ⟨⟨10, by omega⟩, n⟩ := by
  refine Cycle.mk _ (twoDepositsAnswers n) n (.ok ⟨10, by omega⟩) ?_ (fun _ h => by cases h; rfl)
    (fun cl hcl => by simp_all) (fun h => by simp [hsent] at h) (fun _ h => by cases h; rfl) hret
  intro a b cs k logs h
  obtain ⟨latest, hsub, rfl, hb, -, k', hk, hr⟩ := (query_mem_checkForEvents _ _ _ _ _ _).1 h
  have hl : latest = ⟨10, by omega⟩ := Option.some.inj (hsub.symm.trans rfl)
  subst hb hl
  rw [EventKind.signature_injective (List.cons.inj hk).1]
  cases hr
  rfl

/-- A chain that applies only the first of the two deposits moves the nonce, so the cycle
returns `Ok 10` and the loop goes on from block 10, past the deposit with nonce 2. -/
theorem prefix_chain_breaks_no_gap :
    OrderedLog twoDeposits ∧ FaithfulDecode decodeEvents ∧ ∃ st st',
      NoGap twoDeposits st ∧ Cycle twoDeposits decodeEvents 0 "" ⟨"", 0⟩ AppliesPrefix st st' ∧
      ¬ NoGap twoDeposits st' :=
  ⟨twoDeposits_ordered, decodeEvents_faithful, _, _, fun _ _ _ _ => Nat.zero_le _,
    twoDeposits_cycle AppliesPrefix 1 (.inr (by decide)) rfl rfl,
    fun h => absurd (h ⟨5, .sendToCosmos, ⟨2, 0⟩⟩ (by simp [twoDeposits]) (by decide) rfl)
      (by decide)⟩

theorem all_or_none_chain_keeps_no_gap :
    NoGap twoDeposits ⟨⟨10, by omega⟩, 2⟩ :=
  (@watcher_loop_keeps_next_event_ahead twoDeposits decodeEvents 0 "" ⟨"", 0⟩ twoDeposits_ordered
    decodeEvents_faithful).2.1 _ _
    (fun _ _ _ _ => Nat.zero_le _)
    (twoDeposits_cycle AppliesAllOrNone 2 (.inr ⟨by decide, by decide⟩) rfl rfl)

theorem prefix_chain_cycle_raises_nonce :
    (⟨⟨0, by omega⟩, 0⟩ : WatcherState).lastEventNonce ≤
      (⟨⟨10, by omega⟩, 1⟩ : WatcherState).lastEventNonce :=
  lastEventNonce_le_of_reachable (fun h => h) decodeEvents_faithful
    (.single (twoDeposits_cycle AppliesPrefix 1 (.inr (by decide)) rfl rfl))

end Peggy
