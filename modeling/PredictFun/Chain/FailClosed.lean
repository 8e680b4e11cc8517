import PredictFun.Chain.Service

namespace PredictFun.Chain

open Base

namespace ChainClient

variable (client : ChainClient)

def onExpectedChain : (query : Query) → Answer query → Prop
  | .post ⟨id, .chainId⟩ _, response => client.chainIdAnswer id response = .ok client.options.expectedChainId
  | _, _ => False

theorem onExpectedChain_event {client : ChainClient} {event : Program.Event Answer}
    (h : client.onExpectedChain event.1 event.2) :
    ∃ id context response, event = ⟨.post ⟨id, .chainId⟩ context, response⟩ ∧
      client.chainIdAnswer id response = .ok client.options.expectedChainId := by
  obtain ⟨query, answer⟩ := event
  cases query with
  | post request context =>
    obtain ⟨id, call⟩ := request
    cases call with
    | chainId => exact ⟨id, context, answer, rfl, h⟩
    | _ => exact False.elim h
  | _ => exact False.elim h

def onlyChainId : Query → Prop
  | .post request _ => request.call.method = ascii "eth_chainId"
  | _ => True

abbrev Closed {α : Type} (program : Rpc α) (post : α → Prop) : Prop :=
  program.Guarded (fun s => s.validatedChain = none) onlyChainId client.onExpectedChain post

def Failed {α : Type} (result : Result α) : Prop := ∃ error, result = .error error

variable {client} {α β : Type}

theorem Closed.andThen {first : Rpc (Result α)} {next : α → Rpc (Result β)} (h : client.Closed first Failed) :
    client.Closed (first.andThen next) Failed := by
  refine Program.Guarded.bind h (fun result hf => ?_)
  obtain ⟨error, rfl⟩ := hf
  exact ⟨error, rfl⟩

theorem closed_fail {error : Error} : client.Closed (.done (.error error : Result α)) Failed := ⟨error, rfl⟩

theorem Closed.map {program : Rpc α} {post : α → Prop} (h : client.Closed program post) (f : α → β) :
    client.Closed (f <$> program) (fun _ => True) := Program.Guarded.bind h (fun _ _ => trivial)

theorem closed_rawChainId (context : RequestContext) :
    client.Closed (client.rawChainId context) (fun result => result ≠ .ok client.options.expectedChainId) := by
  intro s hs
  exact ⟨hs, rfl, fun response hn => hn⟩

theorem closed_ensureChain (context : RequestContext) : client.Closed (client.ensureChain context) Failed := by
  intro s hs
  refine ⟨hs, ?_⟩
  dsimp only [Program.bind]
  rw [hs]
  refine Program.Guarded.bind (closed_rawChainId context) (fun result hne => ?_)
  cases result with
  | error error => exact ⟨error, rfl⟩
  | ok chain =>
    have hc : chain ≠ client.options.expectedChainId := fun h => hne (by rw [h])
    dsimp only
    rw [if_pos hc]
    exact ⟨_, rfl⟩

theorem closed_checkedRequest (call : RpcCall) (context : RequestContext)
    (answer : BitVec 64 → Response → Result α) : client.Closed (client.checkedRequest call context answer) Failed :=
  (closed_ensureChain context).andThen

theorem closed_quantityMethod (method : String) (params : Bytes) (context : RequestContext) :
    client.Closed (client.quantityMethod method params context) Failed := (closed_checkedRequest _ _ _).andThen

theorem closed_receipt (hash : Bytes) (context : RequestContext) : client.Closed (client.receipt hash context) Failed := by
  unfold receipt
  split_ifs
  · exact closed_fail
  · exact closed_checkedRequest _ _ _

variable (sender : EvmAddress)

theorem closed_populate (transaction : UnsignedTransaction) (context : RequestContext) :
    client.Closed (client.populate sender transaction context) Failed := (closed_quantityMethod _ _ _).andThen

theorem closed_sendRaw (transaction : RawTransaction) (context : RequestContext) :
    client.Closed (client.sendRaw transaction context) Failed := by
  unfold sendRaw
  split
  · exact closed_fail
  · split_ifs
    · exact closed_fail
    · exact closed_checkedRequest _ _ _

theorem closed_ask {query : Query} (h : onlyChainId query) : client.Closed (.ask query .done) (fun _ => True) :=
  ⟨h, fun _ _ => trivial⟩

theorem closed_waitReceipt (hash : Bytes) (options : ReceiptWaitOptions) (context : RequestContext) :
    client.Closed (client.waitReceipt hash options context) Failed := by
  refine guarded_waitReceipt ⟨?_, ?_, ?_⟩ trivial (fun _ => trivial) (fun _ => trivial) (closed_receipt hash) _ _
  · exact fun error _ => ⟨error, rfl⟩
  · rintro receipt ⟨error, he⟩
    cases he
  · exact fun error _ => ⟨error, rfl⟩

theorem closed_execute (transaction : UnsignedTransaction) (signer : Option DigestSigner)
    (options : ReceiptWaitOptions) (context : RequestContext) :
    client.Closed (client.execute sender transaction signer options context) Failed := by
  unfold execute
  split_ifs
  · exact closed_fail
  · exact (closed_populate _ _ _).andThen

theorem closed_read (token : EvmAddress) (data : Result Bytes) (decode : Bytes → Result α) (context : RequestContext) :
    client.Closed (client.read token data decode context) Failed := by
  unfold read
  cases data with
  | error error => exact closed_fail
  | ok data => exact (closed_checkedRequest _ _ _).andThen

theorem closed_estimateGas (transaction : UnsignedTransaction) (context : RequestContext) :
    client.Closed (client.estimateGas sender transaction context) Failed := by
  unfold estimateGas
  split
  · exact closed_fail
  · exact closed_quantityMethod _ _ _

section

variable (run : ApprovalRun)

theorem closed_notify (note : ApprovalProgress) : client.Closed (run.notify note) (fun _ => True) := by
  unfold ApprovalRun.notify
  split_ifs
  · exact closed_ask trivial
  · exact trivial

variable (step : ApprovalStep)

theorem closed_failCurrent (error : Error) :
    client.Closed (run.failCurrent step error) (fun _ => True) :=
  Program.Guarded.bind (closed_notify run _) (fun _ _ => trivial)

theorem closed_submit : client.Closed (run.submit client step) (fun _ => True) := by
  unfold ApprovalRun.submit
  split
  · exact closed_failCurrent run step _
  · refine Program.Guarded.bind (closed_notify run _) (fun _ _ => ?_)
    refine Program.Guarded.bind (closed_execute _ _ _ _ _) (fun executed hf => ?_)
    obtain ⟨error, rfl⟩ := hf
    exact closed_failCurrent run step error

theorem closed_runStep : client.Closed (run.runStep client step) (fun _ => True) := by
  unfold ApprovalRun.runStep
  refine Program.Guarded.bind (closed_ask trivial) (fun stop _ => ?_)
  split_ifs
  · exact closed_failCurrent run step _
  · unfold ApprovalRun.checkOrSubmit
    refine Program.Guarded.bind (closed_notify run _) (fun _ _ => ?_)
    refine Program.Guarded.bind (closed_read _ _ _ _) (fun result hf => ?_)
    obtain ⟨error, rfl⟩ := hf
    exact closed_submit run step
  · exact closed_submit run step

theorem closed_runSteps (steps : List ApprovalStep) (finished : List ApprovalStepResult) :
    client.Closed (run.runSteps client steps finished) (fun _ => True) := by
  induction steps generalizing finished with
  | nil => exact Program.Guarded.bind (closed_ask trivial) (fun _ _ => trivial)
  | cons step rest ih =>
    refine Program.Guarded.bind (closed_runStep run step) (fun result _ => ?_)
    split_ifs
    · exact trivial
    · exact ih _

theorem closed_runApprovals (steps : List ApprovalStep) : client.Closed (client.runApprovals run steps) (fun _ => True) := by
  unfold runApprovals
  split_ifs
  · exact trivial
  · exact Program.Guarded.bind (closed_runSteps run _ _) (fun _ _ => trivial)

end

theorem closed_serve (request : Call) : ∀ program ∈ client.serve request, client.Closed program (fun _ => True) := by
  intro program hp
  cases request with
  | checkApprovals owner steps context =>
    obtain ⟨index, hi, rfl⟩ := List.mem_mapIdx.mp hp
    exact (closed_read _ _ _ _).map _
  | chainId context => exact List.mem_singleton.mp hp ▸ (closed_rawChainId context).map _
  | call request block context => exact List.mem_singleton.mp hp ▸ (closed_checkedRequest _ _ _).map _
  | transactionReceipt hash context => exact List.mem_singleton.mp hp ▸ (closed_receipt hash context).map _
  | estimateGas sender transaction context =>
    exact List.mem_singleton.mp hp ▸ (closed_estimateGas _ _ _).map _
  | populateTransaction sender transaction context => exact List.mem_singleton.mp hp ▸ (closed_populate _ _ _).map _
  | sendRawTransaction transaction context => exact List.mem_singleton.mp hp ▸ (closed_sendRaw _ _).map _
  | waitTransactionReceipt hash options context => exact List.mem_singleton.mp hp ▸ (closed_waitReceipt _ _ _).map _
  | executeTransaction sender transaction signer options context =>
    exact List.mem_singleton.mp hp ▸ (closed_execute _ _ _ _ _).map _
  | nativeBalance | transactionCount | gasPrice => exact List.mem_singleton.mp hp ▸ (closed_quantityMethod _ _ _).map _
  | erc20Balance | erc20Decimals | erc20Allowance | erc1155Balance | erc1155Approved =>
    exact List.mem_singleton.mp hp ▸ (closed_read _ _ _ _).map _
  | runApprovals run steps => exact List.mem_singleton.mp hp ▸ (closed_runApprovals run steps).map _

/-- In every interleaving of calls, a request for anything but the chain id goes out only after the node has answered with
the expected chain; until then only the chain id is asked for. -/
theorem chain_id_fails_closed (client : ChainClient) (inputs : List ChainInput) :
    (∀ before index request context after,
      (client.run inputs).log = before ++ .dispatched index (.post request context) :: after →
      request.call.method ≠ ascii "eth_chainId" →
      ∃ other id context' response, .answered other ⟨.post ⟨id, .chainId⟩ context', response⟩ ∈ before ∧
        client.chainIdAnswer id response = .ok client.options.expectedChainId) ∧
    ((∀ other id context' response, .answered other ⟨.post ⟨id, .chainId⟩ context', response⟩ ∈ (client.run inputs).log →
        client.chainIdAnswer id response ≠ .ok client.options.expectedChainId) →
      ∀ index request context, .dispatched index (.post request context) ∈ (client.run inputs).log →
        request.call.method = ascii "eth_chainId") := by
  have hfirst : ∀ before index request context after,
      (client.run inputs).log = before ++ .dispatched index (.post request context) :: after →
      request.call.method ≠ ascii "eth_chainId" →
      ∃ other id context' response, .answered other ⟨.post ⟨id, .chainId⟩ context', response⟩ ∈ before ∧
        client.chainIdAnswer id response = .ok client.options.expectedChainId := by
    intro before index request context after hlog hm
    have hserved : ∀ program, .start program ∈ inputs.flatMap (ChainInput.tasks client) →
        client.Closed program (fun _ => True) := by
      intro program hp
      obtain ⟨request, hs⟩ := ChainInput.start_served hp
      exact closed_serve request program hs
    obtain ⟨other, event, hmem, hknown⟩ | hallowed :=
      Tasks.run_guarded (I := fun s => s.validatedChain = none) rfl hserved hlog
    · obtain ⟨id, context', response, rfl, hok⟩ := onExpectedChain_event hknown
      exact ⟨other, id, context', response, hmem, hok⟩
    · exact absurd hallowed hm
  refine ⟨hfirst, fun hnever index request context hmem => ?_⟩
  by_contra hm
  obtain ⟨before, after, hlog⟩ := List.append_of_mem hmem
  obtain ⟨other, id, context', response, hanswered, hok⟩ := hfirst before index request context after hlog hm
  refine hnever other id context' response ?_ hok
  rw [hlog]
  exact List.mem_append_left _ hanswered

def testnetClient : ChainClient where
  options := {}
  json := ⟨fun _ => some ⟨ascii "2.0", 1, some (ascii "0x61"), none⟩, fun _ => none⟩
  keccak := fun _ => .ok (wordOf 0)

def accepting : (query : Query) → Answer query
  | .post _ _ => .ok ⟨200, [], []⟩
  | .now after => ⟨after, le_refl after⟩
  | .wait _ => none
  | .stopRequested => false
  | .progress _ => ()

def askGasPrice : List ChainInput :=
  [.call (.gasPrice ⟨none⟩), .advance 0, .advance 0, .advance 0, .answer 0 accepting, .advance 0, .advance 0, .advance 0]

def posted : Entry Answer Reply → Option RpcRequest
  | .dispatched _ (.post request _) => some request
  | _ => none

theorem posted_eq {entry : Entry Answer Reply} {request : RpcRequest} (h : posted entry = some request) :
    ∃ index context, entry = .dispatched index (.post request context) := by
  cases entry with
  | dispatched index query =>
    cases query with
    | post other context => exact ⟨index, context, by rw [Option.some.inj h]⟩
    | _ => cases h
  | _ => cases h

theorem posted_gasPrice : (testnetClient.run askGasPrice).log.filterMap posted =
    [⟨1, .chainId⟩, ⟨2, .string (ascii "eth_gasPrice") (ascii "[]")⟩] := by decide

theorem gas_price_after_chain_id : ∃ other id context response,
    .answered other ⟨.post ⟨id, .chainId⟩ context, response⟩ ∈ (testnetClient.run askGasPrice).log ∧
      testnetClient.chainIdAnswer id response = .ok .bnbTestnet := by
  have hmem : (⟨2, .string (ascii "eth_gasPrice") (ascii "[]")⟩ : RpcRequest) ∈
      (testnetClient.run askGasPrice).log.filterMap posted := by
    rw [posted_gasPrice]
    exact List.mem_cons_of_mem _ List.mem_cons_self
  obtain ⟨entry, he, hp⟩ := List.mem_filterMap.mp hmem
  obtain ⟨index, context, rfl⟩ := posted_eq hp
  obtain ⟨before, after, hlog⟩ := List.append_of_mem he
  obtain ⟨other, id, context', response, hin, hok⟩ :=
    (chain_id_fails_closed testnetClient askGasPrice).1 before index _ context after hlog (by decide)
  refine ⟨other, id, context', response, ?_, hok⟩
  rw [hlog]
  exact List.mem_append_left _ hin

end ChainClient

end PredictFun.Chain
