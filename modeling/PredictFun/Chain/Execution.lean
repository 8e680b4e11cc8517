import PredictFun.Chain.Broadcast

namespace PredictFun.Chain

open Base Program

theorem withGasMargin_ok {gas limit : Uint256} (h : withGasMargin gas = .ok limit) :
    limit.toNat = ⌈(1.25 : ℚ) * gas.toNat⌉₊ := by
  rw [Uint256.toNat_of_parse h]
  apply le_antisymm
  · apply Nat.le_of_lt_succ
    have hle := Nat.le_ceil ((1.25 : ℚ) * gas.toNat)
    have hq : 125 * gas.toNat ≤ 100 * ⌈(1.25 : ℚ) * gas.toNat⌉₊ := by
      have hc : (125 : ℚ) * gas.toNat ≤ 100 * ⌈(1.25 : ℚ) * gas.toNat⌉₊ := by linarith
      exact_mod_cast hc
    omega
  · apply Nat.ceil_le.mpr
    have hn : 125 * gas.toNat ≤ 100 * ((gas.toNat * 125 + 99) / 100) := by omega
    have hq : (125 : ℚ) * gas.toNat ≤ 100 * ((gas.toNat * 125 + 99) / 100 : ℕ) := by exact_mod_cast hn
    linarith

namespace ChainClient

variable (client : ChainClient)

def Quantity (method : String) (params : Bytes) (value : Uint256) (event : Event Answer) : Prop :=
  ∃ id context response text, event = ⟨.post ⟨id, .string (ascii method) params⟩ context, response⟩ ∧
    client.stringAnswer "JSON-RPC string result is missing" id response = .ok text ∧
    quantityValue (text.drop 2) = some value.toNat

structure Faithful (sender : EvmAddress) (transaction : UnsignedTransaction) (events : List (Event Answer))
    (populated : PopulatedTransaction) : Prop where
  chainId : populated.chainId = client.options.expectedChainId
  fromAddress : populated.fromAddress = sender
  toAddress : populated.toAddress = transaction.toAddress
  value : populated.value = transaction.value
  data : populated.data = transaction.data
  nonce : ∃ event ∈ events,
    client.Quantity "eth_getTransactionCount" (countParams sender .pending) populated.nonce event
  gasPrice : ∃ event ∈ events, client.Quantity "eth_gasPrice" (ascii "[]") populated.gasPrice event
  gasLimit : ∃ estimate value, encodeQuantity transaction.value = .ok value ∧
    (∃ event ∈ events, client.Quantity "eth_estimateGas" (estimateParams sender transaction value) estimate event) ∧
    populated.gasLimit.toNat = ⌈(1.25 : ℚ) * estimate.toNat⌉₊

theorem Faithful.mono {client : ChainClient} {sender : EvmAddress} {transaction : UnsignedTransaction}
    {events more : List (Event Answer)} {populated : PopulatedTransaction}
    (h : client.Faithful sender transaction events populated) (hs : events ⊆ more) :
    client.Faithful sender transaction more populated := by
  obtain ⟨nonce, hn, hq⟩ := h.nonce
  obtain ⟨price, hp, hr⟩ := h.gasPrice
  obtain ⟨estimate, value, hv, ⟨event, he, hg⟩, hl⟩ := h.gasLimit
  exact { h with
    nonce := ⟨nonce, hs hn, hq⟩
    gasPrice := ⟨price, hs hp, hr⟩
    gasLimit := ⟨estimate, value, hv, ⟨event, hs he, hg⟩, hl⟩ }

section

variable {client} {sender : EvmAddress} {transaction : UnsignedTransaction} {context : RequestContext}
  {events : List (Event Answer)}

theorem yields_quantityMethod {method : String} {params : Bytes} {value : Uint256}
    (h : (client.quantityMethod method params context).Yields events (.ok value)) :
    ∃ event ∈ events, client.Quantity method params value event := by
  obtain ⟨error, _, ⟨⟩⟩ | ⟨text, before, after, rfl, hs, hd⟩ := Rpc.yields_andThen h
  obtain ⟨rfl, hd⟩ := hd
  obtain ⟨error, _, ⟨⟩⟩ | ⟨chain, first, id, response, rfl, -, hr⟩ := client.yields_checkedRequest hs
  refine ⟨_, ?_, id, context, response, text, rfl, hr.symm, decodeQuantity_ok hd.symm⟩
  simp

theorem yields_populate {populated : PopulatedTransaction}
    (h : (client.populate sender transaction context).Yields events (.ok populated)) :
    client.Faithful sender transaction events populated := by
  obtain ⟨error, _, ⟨⟩⟩ | ⟨nonce, asked, rest, rfl, hn, h⟩ := Rpc.yields_andThen h
  obtain ⟨error, _, ⟨⟩⟩ | ⟨price, asked', rest', rfl, hp, h⟩ := Rpc.yields_andThen h
  cases hv : encodeQuantity transaction.value with
  | error error =>
    rw [hv] at h
    cases h.2
  | ok value =>
    rw [hv] at h
    obtain ⟨error, _, ⟨⟩⟩ | ⟨gas, asked'', rest'', rfl, hg, rfl, hl⟩ := Rpc.yields_andThen h
    cases hm : withGasMargin gas with
    | error error =>
      rw [hm] at hl
      cases hl
    | ok limit =>
      rw [hm] at hl
      cases hl
      obtain ⟨event, he, hn⟩ := yields_quantityMethod hn
      obtain ⟨event', he', hp⟩ := yields_quantityMethod hp
      obtain ⟨event'', he'', hg⟩ := yields_quantityMethod hg
      exact {
        chainId := rfl
        fromAddress := rfl
        toAddress := rfl
        value := rfl
        data := rfl
        nonce := ⟨event, List.mem_append_left _ he, hn⟩
        gasPrice := ⟨event', List.mem_append_right _ (List.mem_append_left _ he'), hp⟩
        gasLimit := ⟨gas, value, hv,
          ⟨event'', List.mem_append_right _ (List.mem_append_right _ (List.mem_append_left _ he'')), hg⟩,
          withGasMargin_ok hm⟩ }

end

section

variable {client} {sender : EvmAddress} {transaction : UnsignedTransaction} {signer : Option DigestSigner}
  {waitOptions : ReceiptWaitOptions} {context : RequestContext} {events : List (Event Answer)}

theorem filterMap_broadcast (h : ∀ e ∈ events, broadcast e.1 = none) : events.filterMap (fun e => broadcast e.1) = [] :=
  List.filterMap_eq_nil_iff.mpr h

theorem Submitted.broadcasts {raw : RawTransaction} {result : Result TransactionSubmission}
    (h : client.Submitted raw context events result) : (events.filterMap (fun e => broadcast e.1)).length ≤ 1 := by
  cases h with
  | unsent hs => rw [filterMap_broadcast hs]; simp
  | sent hs _ =>
    rw [List.filterMap_append, filterMap_broadcast hs]
    exact List.length_filterMap_le _ _

theorem Executed.broadcasts {result : Result TransactionExecution}
    (h : client.Executed sender transaction signer waitOptions context events result) :
    (events.filterMap (fun e => broadcast e.1)).length ≤ 1 := by
  cases h with
  | unsent hs => rw [filterMap_broadcast hs]; simp
  | failed hp _ hr =>
    rw [List.filterMap_append, filterMap_broadcast ((client.silent_populate _ _ _).yields hp)]
    exact hr.broadcasts
  | sent hp _ hr hw =>
    rw [List.filterMap_append, List.filterMap_append, filterMap_broadcast ((client.silent_populate _ _ _).yields hp),
      filterMap_broadcast ((client.silent_waitReceipt _ _ _).yields hw), List.append_nil]
    exact hr.broadcasts

theorem prefix_of_not_mem {α : Type} {before after first rest : List α} {e : α} (h : before ++ e :: after = first ++ rest)
    (hn : e ∉ first) : first <+: before := by
  rcases le_or_gt first.length before.length with hl | hl
  · exact List.prefix_of_prefix_length_le ⟨rest, h.symm⟩ (List.prefix_append _ _) hl
  · have hp : before ++ [e] <+: first :=
      List.prefix_of_prefix_length_le ⟨after, by simp⟩ ⟨rest, h.symm⟩ (by simpa using hl)
    exact absurd (hp.subset (by simp)) hn

theorem Executed.signed {result : Result TransactionExecution} {before after : List (Event Answer)} {bytes : Bytes}
    {other : RequestContext} {id : BitVec 64} {response : Response}
    (h : client.Executed sender transaction signer waitOptions context
      (before ++ sendEvent bytes other id response :: after) result) :
    ∃ populated raw, client.Faithful sender transaction before populated ∧
      signLegacyTransaction client.keccak populated signer = some (.ok raw) ∧ raw.bytes = bytes := by
  have hm : sendEvent bytes other id response ∈ before ++ sendEvent bytes other id response :: after := by simp
  obtain ⟨asked, submitting, later, populated, raw, submitted, hevents, hp, hs, hr, hm, -⟩ := h.of_sendEvent hm
  have hn : sendEvent bytes other id response ∉ asked :=
    sendEvent_not_mem ((client.silent_populate sender transaction context).yields hp)
  exact ⟨populated, raw, (yields_populate hp).mono (prefix_of_not_mem hevents hn).subset, hs, (hr.of_sendEvent hm).1.symm⟩

end

def Plain {α : Type} (result : Result α) : Prop := ∀ error, result = .error error → error.code ≠ .executionReverted

section

variable {α β : Type}

theorem plain_ok (value : α) : Plain (.ok value) := by
  intro _ h
  cases h

theorem plain_error {error : Error} (h : error.code ≠ .executionReverted) : Plain (.error error : Result α) := by
  rintro _ ⟨⟩
  exact h

theorem plain_fail {code : ErrorCode} (h : code ≠ .executionReverted) (message field : String) :
    Plain (fail code message field : Result α) := plain_error h

theorem Plain.bind {first : Result α} {next : α → Result β} (h : Plain first) (hn : ∀ value, Plain (next value)) :
    Plain (first >>= next) := by
  cases first with
  | error error => exact plain_error (h error rfl)
  | ok value => exact hn value

theorem Plain.map {first : Result α} (h : Plain first) (f : α → β) : Plain (first.map f) := by
  cases first with
  | error error => exact plain_error (h error rfl)
  | ok value => exact plain_ok _

theorem plain_received (response : Response) : Plain (received response) := by
  cases response with
  | ok response => exact plain_ok _
  | error failure =>
    refine plain_error (fun hc => ?_)
    have hcode := failure.code
    rw [hc] at hcode
    exact absurd hcode (by decide)

theorem plain_parseResponse {ω : Type} {read : Bytes → Option ω} {jsonrpc : ω → Bytes} {wireId : ω → BitVec 64}
    {error : ω → Option WireRpcError} {limit : ℕ} {id : BitVec 64} {response : Trading.HttpResponse} :
    Plain (parseResponse read jsonrpc wireId error limit id response) := by
  unfold parseResponse
  split_ifs
  · exact plain_error (by simp)
  · exact plain_error (by simp)
  · exact plain_fail (by decide) _ _
  · cases read response.body with
    | none => exact plain_fail (by decide) _ _
    | some value =>
      dsimp only
      split_ifs
      · exact plain_fail (by decide) _ _
      · cases error value with
        | none => exact plain_ok _
        | some failure => exact plain_error (by simp [rpcError])

theorem plain_parse (text : Bytes) : Plain (Uint256.parse text) := by
  unfold Uint256.parse
  split_ifs
  · exact plain_ok _
  · exact plain_fail (by decide) _ _
  · exact plain_fail (by decide) _ _

theorem plain_decodeQuantity (hex : Bytes) : Plain (decodeQuantity hex) := by
  unfold decodeQuantity
  split_ifs
  · exact plain_fail (by decide) _ _
  · exact plain_fail (by decide) _ _
  · cases quantityValue (hex.drop 2) with
    | none => exact plain_fail (by decide) _ _
    | some value =>
      dsimp only
      split_ifs
      · exact plain_fail (by decide) _ _
      · exact plain_parse _

theorem plain_chainIdAnswer (id : BitVec 64) (response : Response) : Plain (client.chainIdAnswer id response) := by
  refine Plain.bind (Plain.bind (plain_received response) (fun _ => plain_parseResponse.bind (fun wire => ?_))) (fun result => ?_)
  · cases wire.result with
    | none => exact plain_fail (by decide) _ _
    | some result => exact plain_ok _
  · refine (plain_decodeQuantity result).bind (fun value => ?_)
    split_ifs
    · exact plain_ok _
    · exact plain_ok _
    · exact plain_fail (by decide) _ _

theorem plain_optionalQuantity (source : Option Bytes) : Plain (optionalQuantity source) := by
  cases source with
  | none => exact plain_ok _
  | some source => exact (plain_decodeQuantity source).map some

theorem plain_receiptAnswer (hash : Bytes) (id : BitVec 64) (response : Response) :
    Plain (client.receiptAnswer hash id response) := by
  refine (plain_received response).bind (fun _ => plain_parseResponse.bind (fun wire => ?_))
  cases wire.result with
  | none => exact plain_ok _
  | some value =>
    dsimp only
    cases value.transactionHash with
    | none => exact plain_fail (by decide) _ _
    | some found =>
      dsimp only
      split_ifs
      · exact plain_fail (by decide) _ _
      · exact (plain_optionalQuantity _).bind (fun _ => (plain_optionalQuantity _).bind (fun _ =>
          (plain_optionalQuantity _).bind (fun _ => (plain_optionalQuantity _).bind (fun _ => plain_ok _))))

end

def Gives (hash : Bytes) : (query : Query) → Answer query → Prop
  | .post ⟨id, .receipt asked⟩ _, response => asked = hash ∧ ∃ receipt, client.receiptAnswer hash id response = .ok (some receipt)
  | _, _ => False

theorem gives_event {hash : Bytes} {event : Event Answer} (h : client.Gives hash event.1 event.2) :
    ∃ id context response receipt, event = ⟨.post ⟨id, .receipt hash⟩ context, response⟩ ∧
      client.receiptAnswer hash id response = .ok (some receipt) := by
  obtain ⟨query, answer⟩ := event
  cases query with
  | post request context =>
    obtain ⟨id, call⟩ := request
    cases call with
    | receipt asked =>
      obtain ⟨rfl, receipt, hr⟩ := h
      exact ⟨id, context, answer, receipt, rfl, hr⟩
    | _ => exact False.elim h
  | _ => exact False.elim h

abbrev Without {α : Type} (hash : Bytes) (program : Rpc α) (post : α → Prop) : Prop :=
  program.Guarded (fun _ => True) (fun _ => True) (client.Gives hash) post

section

variable {client} {α β : Type} {hash : Bytes} {context : RequestContext}

theorem without_access {update : Shared → Shared} {next : Shared → Rpc α} {post : α → Prop}
    (h : ∀ s, client.Without hash (next s) post) : client.Without hash (.access update next) post :=
  fun s _ => ⟨trivial, h s⟩

theorem without_ensureChain : client.Without hash (client.ensureChain context) Plain := by
  refine without_access (fun s => ?_)
  dsimp only [Program.bind]
  cases s.validatedChain with
  | some chain => exact plain_ok _
  | none =>
    have hraw : client.Without hash (client.rawChainId context) Plain :=
      fun s _ => ⟨trivial, trivial, fun response _ => client.plain_chainIdAnswer s.requestId response⟩
    refine Rpc.guarded_andThen hraw (fun error h => plain_error (h error rfl)) (fun chain _ => ?_)
    split_ifs
    · exact plain_fail (by decide) _ _
    · exact without_access (fun _ => plain_ok _)

theorem without_receipt :
    client.Without hash (client.receipt hash context) (fun result => Plain result ∧ ∀ receipt, result ≠ .ok (some receipt)) := by
  unfold receipt
  split_ifs
  · exact ⟨plain_fail (by decide) _ _, fun _ h => nomatch h⟩
  refine Rpc.guarded_andThen without_ensureChain (fun error h => ⟨plain_error (h error rfl), fun _ h => nomatch h⟩) (fun _ _ => ?_)
  refine fun s _ => ⟨trivial, trivial, fun response hn => ?_⟩
  exact ⟨client.plain_receiptAnswer hash s.requestId response, fun receipt hr => hn ⟨rfl, receipt, hr⟩⟩

def Unconfirmed (result : Result TransactionReceipt) : Prop :=
  ∃ error, result = .error error ∧ error.code ≠ .executionReverted

theorem without_waitReceipt (options : ReceiptWaitOptions) :
    client.Without hash (client.waitReceipt hash options context) Unconfirmed := by
  refine guarded_waitReceipt ⟨?_, ?_, ?_⟩ trivial (fun _ => trivial) (fun _ => trivial) (fun _ => without_receipt) _ _
  · exact fun error h => ⟨error, rfl, h.1 error rfl⟩
  · exact fun receipt h => absurd rfl (h.2 receipt)
  · intro error hcode
    refine ⟨error, rfl, ?_⟩
    intro he
    simp [he] at hcode

end

theorem receiptAnswer_hash {hash : Bytes} {id : BitVec 64} {response : Response} {receipt : TransactionReceipt}
    (h : client.receiptAnswer hash id response = .ok (some receipt)) : sameHash receipt.transactionHash hash = true := by
  obtain ⟨response, -, h⟩ := Result.bind_eq_ok.mp h
  obtain ⟨wire, -, h⟩ := Result.bind_eq_ok.mp h
  cases hr : wire.result with
  | none =>
    rw [hr] at h
    cases h
  | some value =>
    rw [hr] at h
    dsimp only at h
    cases hh : value.transactionHash with
    | none =>
      rw [hh] at h
      cases h
    | some found =>
      rw [hh] at h
      dsimp only at h
      split_ifs at h with hbad
      · cases h
      push Not at hbad
      obtain ⟨_, -, h⟩ := Result.bind_eq_ok.mp h
      obtain ⟨_, -, h⟩ := Result.bind_eq_ok.mp h
      obtain ⟨_, -, h⟩ := Result.bind_eq_ok.mp h
      obtain ⟨_, -, h⟩ := Result.bind_eq_ok.mp h
      cases h
      simpa using hbad.2

section

variable {client} {sender : EvmAddress} {transaction : UnsignedTransaction} {signer : Option DigestSigner}
  {waitOptions : ReceiptWaitOptions} {context : RequestContext}

theorem executionOf_unconfirmed {populated : PopulatedTransaction} {raw : RawTransaction}
    {submission : TransactionSubmission} {receipt : Result TransactionReceipt} (h : Unconfirmed receipt) :
    (executionOf populated raw submission receipt).state = .outcomeUnknown := by
  obtain ⟨error, rfl, hc⟩ := h
  exact if_neg hc

variable {events : List (Event Answer)}

theorem Submitted.sends {raw : RawTransaction} {submission : TransactionSubmission}
    (h : client.Submitted raw context events (.ok submission)) :
    (∃ id response, sendEvent raw.bytes context id response ∈ events) ∧ client.Determines raw.bytes raw.transactionHash := by
  generalize hr : (Except.ok submission : Result TransactionSubmission) = result at h
  cases h with
  | unsent => cases hr
  | sent hs hd => exact ⟨⟨_, _, List.mem_append_right _ List.mem_cons_self⟩, hd⟩

theorem Executed.concluded {execution : TransactionExecution}
    (h : client.Executed sender transaction signer waitOptions context events (.ok execution))
    (hs : execution.state ≠ .outcomeUnknown) :
    (∃ id response, sendEvent execution.rawTransaction.bytes context id response ∈ events) ∧
      ∃ id other hash response receipt, (⟨.post ⟨id, .receipt hash⟩ other, response⟩ : Event Answer) ∈ events ∧
        client.receiptAnswer hash id response = .ok (some receipt) ∧
        client.Determines execution.rawTransaction.bytes receipt.transactionHash := by
  cases h with
  | @sent asked submitting later populated raw submission receipt hp hsign hr hw =>
    obtain ⟨⟨id, response, hm⟩, hd⟩ := hr.sends
    rw [executionOf_raw]
    refine ⟨⟨id, response, List.mem_append_right _ (List.mem_append_left _ hm)⟩, ?_⟩
    by_cases hg : ∃ event ∈ later, client.Gives raw.transactionHash event.1 event.2
    · obtain ⟨event, he, hg⟩ := hg
      obtain ⟨id', other, answer, found, rfl, ha⟩ := client.gives_event hg
      exact ⟨id', other, _, answer, found, List.mem_append_right _ (List.mem_append_right _ he), ha,
        hd.sameHash_iff.mp (client.receiptAnswer_hash ha)⟩
    · have hu := Guarded.yields (without_waitReceipt waitOptions) hw (fun event he hk => hg ⟨event, he, hk⟩)
      exact absurd (executionOf_unconfirmed hu.2) hs

instance : Nonempty Shared := ⟨{}⟩

instance (query : Query) : Nonempty (Answer query) := by
  cases query with
  | post request context => exact ⟨.ok ⟨200, [], []⟩⟩
  | now after => exact ⟨⟨after, le_refl after⟩⟩
  | wait wake => exact ⟨none⟩
  | stopRequested => exact ⟨false⟩
  | progress note => exact ⟨()⟩

theorem executed_of_map {reply : Reply}
    (h : (Reply.execution <$> client.execute sender transaction signer waitOptions context).Yields events reply) :
    ∃ result, reply = .execution result ∧ client.Executed sender transaction signer waitOptions context events result := by
  obtain ⟨first, result, rest, rfl, hy, rfl, rfl⟩ := yields_bind.mp h
  rw [List.append_nil]
  exact ⟨result, rfl, client.executed_execute hy⟩

end

/-- One call of `execute` sends one faithful transaction at most, is answered at most once, and reports a confirmed or
reverted execution only after the node has given the receipt of what was sent. -/
theorem execute_sends_one_transaction (inputs : List ChainInput) (index : ℕ) (sender : EvmAddress)
    (transaction : UnsignedTransaction) (signer : Option DigestSigner) (waitOptions : ReceiptWaitOptions)
    (context : RequestContext)
    (h : client.Started inputs index (.executeTransaction sender transaction signer waitOptions context)) :
    (((client.run inputs).log.filterMap (Entry.dispatchOf index)).filterMap broadcast).length ≤ 1 ∧
    (∀ before after id bytes other,
      (client.run inputs).log = before ++ .dispatched index (.post ⟨id, .sendRaw bytes⟩ other) :: after →
      ∃ populated raw, client.Faithful sender transaction (before.filterMap (Entry.answerOf index)) populated ∧
        signLegacyTransaction client.keccak populated signer = some (.ok raw) ∧ raw.bytes = bytes) ∧
    ((client.run inputs).log.filterMap (Entry.completionOf index)).length ≤ 1 ∧
    ∀ before after execution, (client.run inputs).log = before ++ .completed index (.execution (.ok execution)) :: after →
      execution.state = .confirmed ∨ execution.state = .reverted →
      (∃ id other, .dispatched index (.post ⟨id, .sendRaw execution.rawTransaction.bytes⟩ other) ∈ before) ∧
      ∃ id other hash response receipt, .answered index ⟨.post ⟨id, .receipt hash⟩ other, response⟩ ∈ before ∧
        client.receiptAnswer hash id response = .ok (some receipt) ∧
        client.Determines execution.rawTransaction.bytes receipt.transactionHash := by
  obtain ⟨task, ht, ho⟩ := h.origin rfl
  have hr := Tasks.run_recorded (A := Answer) (α := Reply) ({} : Shared) (inputs.flatMap (ChainInput.tasks client)) index
  change Tasks.Recorded index (client.run inputs).log (client.run inputs).tasks[index]? at hr
  rw [ht] at hr
  obtain ⟨hsound, hdispatched, -, hcompleted⟩ := hr
  refine ⟨?_, ?_, ?_, ?_⟩
  · obtain ⟨events, reply, hy, hasked⟩ := Task.asked_prefix hsound
    rw [ho] at hy
    obtain ⟨result, -, hex⟩ := executed_of_map hy
    rw [hdispatched]
    calc (task.asked.filterMap broadcast).length ≤ ((events.map Sigma.fst).filterMap broadcast).length :=
          (hasked.sublist.filterMap broadcast).length_le
      _ = (events.filterMap (fun e => broadcast e.1)).length := by
          rw [List.filterMap_map]
          rfl
      _ ≤ 1 := hex.broadcasts
  · intro before after id bytes other hlog
    obtain ⟨task', next, ht', hpath⟩ := Tasks.run_dispatched hlog
    cases ht.symm.trans ht'
    rw [ho] at hpath
    -- however the run goes on, it is a run of the execution
    obtain ⟨more, reply, hy⟩ := exists_yields (.ask (Query.post ⟨id, .sendRaw bytes⟩ other) next)
    have hwhole := hpath.yields hy
    obtain ⟨response, rest, rfl, -⟩ := hy
    obtain ⟨result, -, hex⟩ := executed_of_map hwhole
    exact hex.signed
  · rw [hcompleted]
    exact task.length_result_le
  · intro before after execution hlog hstate
    obtain ⟨task', ht', hy, hasked⟩ := Tasks.run_completed hlog
    cases ht.symm.trans ht'
    rw [ho] at hy
    obtain ⟨result, hreply, hex⟩ := executed_of_map hy
    cases hreply
    have hs : execution.state ≠ .outcomeUnknown := by rcases hstate with h | h <;> simp [h]
    obtain ⟨⟨id, response, hsent⟩, id', other, hash, answer, receipt, hanswer, hr, hd⟩ := hex.concluded hs
    refine ⟨⟨id, context, Entry.mem_dispatched.mp ?_⟩, id', other, hash, answer, receipt, Entry.mem_answered.mp hanswer, hr, hd⟩
    rw [hasked]
    exact List.mem_map_of_mem hsent

def zeroHash : Bytes := ascii "0x" ++ List.replicate 64 (byte '0')

def receiptClient : ChainClient where
  options := {}
  json := { tersely with
    readReceipt
      | [] => none
      | id :: _ =>
        some ⟨ascii "2.0", id.setWidth 64, some ⟨some zeroHash, none, none, some (ascii "0x1"), none, none⟩, none⟩ }
  keccak _ := .ok (wordOf 0)

def receiptNode : (query : Query) → Answer query
  | .post ⟨id, .chainId⟩ _ => .ok ⟨200, id.setWidth 8 :: ascii "0x61", []⟩
  | .post ⟨id, .sendRaw _⟩ _ => .ok ⟨200, id.setWidth 8 :: zeroHash, []⟩
  | .post ⟨id, _⟩ _ => .ok ⟨200, id.setWidth 8 :: ascii "0x1", []⟩
  | .now after => ⟨after, le_refl after⟩
  | .wait _ => none
  | .stopRequested => false
  | .progress _ => ()

def payment : Call :=
  .executeTransaction (.filled 2) samplePayment (some sampleSigner) {} ⟨some 1000⟩

def paymentInputs : List ChainInput :=
  .call payment :: (List.replicate 32 [ChainInput.advance 0, .answer 0 receiptNode]).flatten

def concludedAs : Entry Answer Reply → Option (TransactionExecutionState × Bytes)
  | .completed 0 (.execution (.ok execution)) => some (execution.state, execution.rawTransaction.bytes)
  | _ => none

theorem concludedAs_eq {entry : Entry Answer Reply} {state : TransactionExecutionState} {bytes : Bytes}
    (h : concludedAs entry = some (state, bytes)) :
    ∃ execution, entry = .completed 0 (.execution (.ok execution)) ∧ execution.state = state ∧
      execution.rawTransaction.bytes = bytes := by
  unfold concludedAs at h
  split at h
  · cases h
    exact ⟨_, rfl, rfl, rfl⟩
  · cases h

theorem payment_concluded : (receiptClient.run paymentInputs).log.filterMap concludedAs = [(.confirmed, signedPayment)] := by
  decide +kernel

theorem payment_confirmed_by_receipt :
    ∃ id other hash response receipt,
      .answered 0 ⟨.post ⟨id, .receipt hash⟩ other, response⟩ ∈ (receiptClient.run paymentInputs).log ∧
        receiptClient.receiptAnswer hash id response = .ok (some receipt) ∧
        receiptClient.Determines signedPayment receipt.transactionHash := by
  have hmem : (.confirmed, signedPayment) ∈ (receiptClient.run paymentInputs).log.filterMap concludedAs := by
    rw [payment_concluded]
    exact List.mem_singleton_self _
  obtain ⟨entry, he, hc⟩ := List.mem_filterMap.mp hmem
  obtain ⟨execution, rfl, hstate, hbytes⟩ := concludedAs_eq hc
  obtain ⟨before, after, hlog⟩ := List.append_of_mem he
  obtain ⟨-, -, -, hconcluded⟩ := receiptClient.execute_sends_one_transaction paymentInputs 0 _ _ _ _ _ ⟨[], _, rfl, rfl⟩
  obtain ⟨-, id, other, hash, response, receipt, hm, hr, hd⟩ := hconcluded before after execution hlog (Or.inl hstate)
  refine ⟨id, other, hash, response, receipt, ?_, hr, hbytes ▸ hd⟩
  rw [hlog]
  exact List.mem_append_left _ hm

end ChainClient

end PredictFun.Chain
