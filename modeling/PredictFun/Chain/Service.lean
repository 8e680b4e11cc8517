import PredictFun.Chain.Approvals

namespace PredictFun.Chain

open Base

inductive Call
  | chainId (context : RequestContext)
  | nativeBalance (owner : EvmAddress) (block : BlockTag) (context : RequestContext)
  | call (request : CallRequest) (block : BlockTag) (context : RequestContext)
  | transactionReceipt (hash : Bytes) (context : RequestContext)
  | transactionCount (address : EvmAddress) (block : BlockTag) (context : RequestContext)
  | gasPrice (context : RequestContext)
  | estimateGas (sender : EvmAddress) (transaction : UnsignedTransaction) (context : RequestContext)
  | populateTransaction (sender : EvmAddress) (transaction : UnsignedTransaction) (context : RequestContext)
  | sendRawTransaction (transaction : RawTransaction) (context : RequestContext)
  | waitTransactionReceipt (hash : Bytes) (options : ReceiptWaitOptions) (context : RequestContext)
  | executeTransaction (sender : EvmAddress) (transaction : UnsignedTransaction) (signer : Option DigestSigner)
      (options : ReceiptWaitOptions) (context : RequestContext)
  | erc20Balance (token owner : EvmAddress) (context : RequestContext)
  | erc20Decimals (token : EvmAddress) (context : RequestContext)
  | erc20Allowance (token owner spender : EvmAddress) (context : RequestContext)
  | erc1155Balance (token owner : EvmAddress) (tokenId : Uint256) (context : RequestContext)
  | erc1155Approved (token owner operatorAddress : EvmAddress) (context : RequestContext)
  | checkApprovals (owner : EvmAddress) (steps : List ApprovalStep) (context : RequestContext)
  | runApprovals (run : ChainClient.ApprovalRun) (steps : List ApprovalStep)

inductive Reply
  | chainId (result : Result ChainId)
  | quantity (result : Result Uint256)
  | text (result : Result Bytes)
  | decimals (result : Result Byte)
  | approved (result : Result Bool)
  | found (result : Result (Option TransactionReceipt))
  | populated (result : Result PopulatedTransaction)
  | submission (result : Result TransactionSubmission)
  | receipt (result : Result TransactionReceipt)
  | execution (result : Result TransactionExecution)
  | check (index : ℕ) (result : Result ApprovalCheck)
  | report (result : Result ApprovalRunReport)

/-- What a call starts: one program, or the reads of the approval checks side by side. -/
def ChainClient.serve (client : ChainClient) : Call → List (Rpc Reply)
  | .chainId context => [Reply.chainId <$> client.rawChainId context]
  | .nativeBalance owner block context => [Reply.quantity <$> client.nativeBalance owner block context]
  | .call request block context => [Reply.text <$> client.call request block context]
  | .transactionReceipt hash context => [Reply.found <$> client.receipt hash context]
  | .transactionCount address block context => [Reply.quantity <$> client.transactionCount address block context]
  | .gasPrice context => [Reply.quantity <$> client.gasPrice context]
  | .estimateGas sender transaction context => [Reply.quantity <$> client.estimateGas sender transaction context]
  | .populateTransaction sender transaction context => [Reply.populated <$> client.populate sender transaction context]
  | .sendRawTransaction transaction context => [Reply.submission <$> client.sendRaw transaction context]
  | .waitTransactionReceipt hash options context => [Reply.receipt <$> client.waitReceipt hash options context]
  | .executeTransaction sender transaction signer options context =>
    [Reply.execution <$> client.execute sender transaction signer options context]
  | .erc20Balance token owner context => [Reply.quantity <$> client.erc20Balance token owner context]
  | .erc20Decimals token context => [Reply.decimals <$> client.erc20TokenDecimals token context]
  | .erc20Allowance token owner spender context => [Reply.quantity <$> client.erc20TokenAllowance token owner spender context]
  | .erc1155Balance token owner tokenId context => [Reply.quantity <$> client.erc1155Balance token owner tokenId context]
  | .erc1155Approved token owner operatorAddress context =>
    [Reply.approved <$> client.erc1155Approved token owner operatorAddress context]
  | .checkApprovals owner steps context =>
    steps.mapIdx (fun index step => Reply.check index <$> client.checkApproval owner step context)
  | .runApprovals run steps => [Reply.report <$> client.runApprovals run steps]

inductive ChainInput
  | call (request : Call)
  | advance (index : ℕ)
  | answer (index : ℕ) (reply : (query : Query) → Answer query)

def ChainInput.tasks (client : ChainClient) : ChainInput → List (TaskInput Shared Answer Reply)
  | .call request => (client.serve request).map .start
  | .advance index => [.advance index]
  | .answer index reply => [.answer index reply]

abbrev ChainSystem := Tasks Shared Answer Reply

def ChainClient.run (client : ChainClient) (inputs : List ChainInput) : ChainSystem :=
  Runs.run Tasks.step (Tasks.fresh {}) (inputs.flatMap (ChainInput.tasks client))

theorem ChainInput.start_served {client : ChainClient} {inputs : List ChainInput} {program : Rpc Reply}
    (h : TaskInput.start program ∈ inputs.flatMap (ChainInput.tasks client)) : ∃ request, program ∈ client.serve request := by
  obtain ⟨input, -, hi⟩ := List.mem_flatMap.mp h
  cases input with
  | call request =>
    obtain ⟨served, hs, he⟩ := List.mem_map.mp hi
    cases he
    exact ⟨request, hs⟩
  | advance index | answer index reply => cases List.mem_singleton.mp hi

def ChainClient.Started (client : ChainClient) (inputs : List ChainInput) (index : ℕ) (request : Call) : Prop :=
  ∃ earlier later, inputs = earlier ++ .call request :: later ∧ index = (client.run earlier).tasks.length

theorem ChainClient.Started.origin {client : ChainClient} {inputs : List ChainInput} {index : ℕ} {request : Call}
    {program : Rpc Reply} (h : client.Started inputs index request) (hs : client.serve request = [program]) :
    ∃ task, (client.run inputs).tasks[index]? = some task ∧ task.origin = program := by
  obtain ⟨earlier, later, rfl, rfl⟩ := h
  have hrun : client.run (earlier ++ .call request :: later) =
      Runs.run Tasks.step ((client.run earlier).step (.start program)) (later.flatMap (ChainInput.tasks client)) := by
    rw [run, List.flatMap_append, List.flatMap_cons, Runs.run_append, Runs.run_append, ChainInput.tasks, hs]
    rfl
  have hnew : ((client.run earlier).step (.start program)).tasks[(client.run earlier).tasks.length]? =
      some ⟨program, [], .running program⟩ := List.getElem?_concat_length
  rw [hrun]
  exact Tasks.run_origin _ hnew

end PredictFun.Chain
