import PredictFun.Chain.Service

namespace PredictFun.Chain

open Base Program

theorem Rpc.yields_andThen {α β : Type} {first : Rpc (Result α)} {next : α → Rpc (Result β)} {events : List (Event Answer)}
    {result : Result β} (h : (first.andThen next).Yields events result) :
    (∃ error, first.Yields events (.error error) ∧ result = .error error) ∨
      ∃ value before after, events = before ++ after ∧ first.Yields before (.ok value) ∧ (next value).Yields after result := by
  obtain ⟨before, outcome, after, rfl, hf, hn⟩ := yields_bind.mp h
  cases outcome with
  | error error =>
    obtain ⟨rfl, rfl⟩ := hn
    rw [List.append_nil]
    exact Or.inl ⟨error, hf, rfl⟩
  | ok value => exact Or.inr ⟨value, before, after, rfl, hf, hn⟩

def broadcast : Query → Option Bytes
  | .post ⟨_, .sendRaw bytes⟩ _ => some bytes
  | _ => none

def Silent {α : Type} (program : Rpc α) : Prop :=
  program.Guarded (fun _ => True) (fun query => broadcast query = none) (fun _ _ => False) (fun _ => True)

section

variable {α β : Type} {program : Rpc α} {next : α → Rpc β}

theorem Silent.bind (h : Silent program) (hn : ∀ value, Silent (next value)) : Silent (program.bind next) :=
  Guarded.bind h (fun value _ => hn value)

theorem silent_done (value : α) : Silent (.done value : Rpc α) := trivial

theorem silent_ask {query : Query} (h : broadcast query = none) : Silent (.ask query .done) := ⟨h, fun _ _ => trivial⟩

theorem silent_access {update : Shared → Shared} {next : Shared → Rpc α} (h : ∀ s, Silent (next s)) :
    Silent (.access update next) := fun s _ => ⟨trivial, h s⟩

theorem Silent.andThen {first : Rpc (Result α)} {next : α → Rpc (Result β)} (h : Silent first)
    (hn : ∀ value, Silent (next value)) : Silent (first.andThen next) :=
  Rpc.guarded_andThen h (fun _ _ => trivial) (fun value _ => hn value)

theorem Silent.yields {events : List (Event Answer)} {result : α} (h : Silent program)
    (hy : program.Yields events result) : ∀ e ∈ events, broadcast e.1 = none :=
  (Guarded.yields h hy (fun _ _ hf => hf)).1

end

namespace ChainClient

variable (client : ChainClient) {α : Type}

theorem silent_ensureChain (context : RequestContext) : Silent (client.ensureChain context) := by
  refine silent_access (fun s => ?_)
  dsimp only [Program.bind]
  cases s.validatedChain with
  | some chain => exact silent_done _
  | none =>
    refine Silent.andThen (silent_access (fun s => silent_ask rfl |>.bind (fun _ => silent_done _))) (fun chain => ?_)
    split_ifs
    · exact silent_done _
    · exact silent_access (fun _ => silent_done _)

theorem silent_checkedRequest {call : RpcCall} (h : ∀ id context, broadcast (.post ⟨id, call⟩ context) = none)
    (context : RequestContext) (answer : BitVec 64 → Response → Result α) :
    Silent (client.checkedRequest call context answer) :=
  (client.silent_ensureChain context).andThen (fun _ =>
    silent_access (fun _ => (silent_ask (h _ _)).bind (fun _ => silent_done _)))

theorem silent_quantityMethod (method : String) (params : Bytes) (context : RequestContext) :
    Silent (client.quantityMethod method params context) :=
  (client.silent_checkedRequest (fun _ _ => rfl) context _).andThen (fun _ => silent_done _)

theorem silent_receipt (hash : Bytes) (context : RequestContext) : Silent (client.receipt hash context) := by
  unfold receipt
  split_ifs
  · exact silent_done _
  · exact client.silent_checkedRequest (fun _ _ => rfl) context _

theorem silent_populate (sender : EvmAddress) (transaction : UnsignedTransaction) (context : RequestContext) :
    Silent (client.populate sender transaction context) := by
  refine (client.silent_quantityMethod _ _ _).andThen (fun nonce => ?_)
  refine (client.silent_quantityMethod _ _ _).andThen (fun gasPrice => ?_)
  cases encodeQuantity transaction.value with
  | error error => exact silent_done _
  | ok value => exact (client.silent_quantityMethod _ _ _).andThen (fun _ => silent_done _)

theorem silent_waitReceipt (hash : Bytes) (options : ReceiptWaitOptions) (context : RequestContext) :
    Silent (client.waitReceipt hash options context) := by
  have hends : WaitEnds (fun _ => True) (fun _ => True) := ⟨fun _ _ => trivial, fun _ _ => trivial, fun _ _ => trivial⟩
  apply guarded_waitReceipt hends
  · rfl
  · exact fun _ => rfl
  · exact fun _ => rfl
  · exact client.silent_receipt hash

variable {events : List (Event Answer)} {context : RequestContext}

theorem yields_checkedRequest {call : RpcCall} {answer : BitVec 64 → Response → Result α}
    {result : Result α}
    (h : (client.checkedRequest call context answer).Yields events result) :
    (∃ error, (client.ensureChain context).Yields events (.error error) ∧ result = .error error) ∨
      ∃ chain before id response, events = before ++ [⟨.post ⟨id, call⟩ context, response⟩] ∧
        (client.ensureChain context).Yields before (.ok chain) ∧ result = answer id response := by
  obtain hfailed | ⟨chain, before, after, rfl, hc, hn⟩ := Rpc.yields_andThen h
  · exact Or.inl hfailed
  · obtain ⟨s, response, rest, rfl, rfl, rfl⟩ := hn
    exact Or.inr ⟨chain, before, _, response, rfl, hc, rfl⟩

/-- The hash is the one that the bytes of the transaction determine, in either case of its digits. -/
def Determines (bytes hash : Bytes) : Prop :=
  ∃ calculated, rawTransactionHash client.keccak bytes = .ok calculated ∧ sameHash hash calculated = true

def Refused (id : BitVec 64) : Response → Prop
  | .error _ => False
  | .ok response => ∃ wire, client.json.readString response.body = some wire ∧ wire.jsonrpc = ascii "2.0" ∧ wire.id = id ∧
      wire.error.isSome

def Acknowledged (bytes : Bytes) (id : BitVec 64) : Response → Prop
  | .error _ => False
  | .ok response => response.status = 200 ∧ response.body.length ≤ client.options.maxResponseBytes ∧
      ∃ wire hash, client.json.readString response.body = some wire ∧ wire.jsonrpc = ascii "2.0" ∧ wire.id = id ∧
        wire.error = none ∧ wire.result = some hash ∧ transactionHash hash = true ∧ client.Determines bytes hash

def Lost : Response → Prop
  | .error _ => True
  | .ok _ => False

section

variable {client}

theorem sameHash_iff {left right : Bytes} : sameHash left right = true ↔ left.map lower = right.map lower := decide_eq_true_iff

theorem Determines.sameHash_iff {bytes hash other : Bytes} (h : client.Determines bytes hash) :
    sameHash other hash = true ↔ client.Determines bytes other := by
  obtain ⟨calculated, hc, hs⟩ := h
  rw [ChainClient.sameHash_iff] at hs
  constructor
  · intro ho
    exact ⟨calculated, hc, ChainClient.sameHash_iff.mpr ((ChainClient.sameHash_iff.mp ho).trans hs)⟩
  · rintro ⟨calculated', hc', ho⟩
    cases hc.symm.trans hc'
    exact ChainClient.sameHash_iff.mpr ((ChainClient.sameHash_iff.mp ho).trans hs.symm)

theorem sendAnswer_hash {expected : Bytes} {id : BitVec 64} {response : Response} {submission : TransactionSubmission}
    (h : client.sendAnswer expected id response = .ok submission) : submission.transactionHash = expected := by
  cases response with
  | error failure =>
    cases h
    rfl
  | ok response =>
    obtain ⟨wire, hw, h⟩ := Result.bind_eq_ok.mp h
    split_ifs at h
    · cases h
      rfl
    · cases h

theorem sendAnswer_ok_iff {bytes expected : Bytes} (hd : client.Determines bytes expected) (id : BitVec 64)
    (response : Response) :
    (∃ submission, client.sendAnswer expected id response = .ok submission) ↔
      Lost response ∨ client.Acknowledged bytes id response := by
  cases response with
  | error failure => exact ⟨fun _ => Or.inl trivial, fun _ => ⟨_, rfl⟩⟩
  | ok response =>
    constructor
    · rintro ⟨submission, h⟩
      obtain ⟨wire, hw, h⟩ := Result.bind_eq_ok.mp h
      obtain ⟨hstatus, hlong, hread, hv, hi, he⟩ := parseResponse_ok.mp hw
      split_ifs at h with hany
      · obtain ⟨hash, hr, hh⟩ := (Option.any_eq_true _ _).mp hany
        rw [Bool.and_eq_true, hd.sameHash_iff] at hh
        exact Or.inr ⟨hstatus, hlong, wire, hash, hread, hv, hi, he, hr, hh⟩
      · cases h
    · rintro (hl | ⟨hstatus, hlong, wire, hash, hread, hv, hi, he, hr, hh⟩)
      · exact hl.elim
      · refine ⟨⟨.accepted, expected, none⟩, Result.bind_eq_ok.mpr ⟨wire, parseResponse_ok.mpr ⟨hstatus, hlong, hread, hv, hi, he⟩, ?_⟩⟩
        rw [if_pos]
        · rfl
        · rw [hr, Option.any_some, Bool.and_eq_true, hd.sameHash_iff]
          exact hh

end

def sendEvent (bytes : Bytes) (context : RequestContext) (id : BitVec 64) (response : Response) : Event Answer :=
  ⟨.post ⟨id, .sendRaw bytes⟩ context, response⟩

inductive Submitted (transaction : RawTransaction) (context : RequestContext) :
    List (Event Answer) → Result TransactionSubmission → Prop
  | unsent {events : List (Event Answer)} {error : Error} :
    (∀ e ∈ events, broadcast e.1 = none) → Submitted transaction context events (.error error)
  | sent {before : List (Event Answer)} {id : BitVec 64} {response : Response} :
    (∀ e ∈ before, broadcast e.1 = none) → client.Determines transaction.bytes transaction.transactionHash →
      Submitted transaction context (before ++ [sendEvent transaction.bytes context id response])
        (client.sendAnswer transaction.transactionHash id response)

theorem submitted_sendRaw {transaction : RawTransaction}
    {result : Result TransactionSubmission} (h : (client.sendRaw transaction context).Yields events result) :
    client.Submitted transaction context events result := by
  unfold sendRaw at h
  cases hc : rawTransactionHash client.keccak transaction.bytes with
  | error error =>
    rw [hc] at h
    obtain ⟨rfl, rfl⟩ := h
    exact .unsent (by simp)
  | ok calculated =>
    rw [hc] at h
    dsimp only at h
    split_ifs at h with hbad
    · obtain ⟨rfl, rfl⟩ := h
      exact .unsent (by simp)
    push Not at hbad
    obtain ⟨error, hy, rfl⟩ | ⟨chain, before, id, response, rfl, hy, rfl⟩ := client.yields_checkedRequest h
    · exact .unsent ((client.silent_ensureChain context).yields hy)
    · exact .sent ((client.silent_ensureChain context).yields hy) ⟨calculated, hc, by simpa using hbad.2⟩

theorem executionOf_raw (transaction : PopulatedTransaction) (raw : RawTransaction) (submission : TransactionSubmission)
    (receipt : Result TransactionReceipt) : (executionOf transaction raw submission receipt).rawTransaction = raw := by
  cases receipt <;> rfl

theorem executionOf_submission (transaction : PopulatedTransaction) (raw : RawTransaction)
    (submission : TransactionSubmission) (receipt : Result TransactionReceipt) :
    (executionOf transaction raw submission receipt).submission = submission := by
  cases receipt <;> rfl

inductive Executed (sender : EvmAddress) (transaction : UnsignedTransaction) (signer : Option DigestSigner)
    (waitOptions : ReceiptWaitOptions) (context : RequestContext) :
    List (Event Answer) → Result TransactionExecution → Prop
  | unsent {events : List (Event Answer)} {error : Error} :
    (∀ e ∈ events, broadcast e.1 = none) → Executed sender transaction signer waitOptions context events (.error error)
  | sent {before submitting after : List (Event Answer)} {populated : PopulatedTransaction} {raw : RawTransaction}
    {submission : TransactionSubmission} {receipt : Result TransactionReceipt} :
    (client.populate sender transaction context).Yields before (.ok populated) →
      signLegacyTransaction client.keccak populated signer = some (.ok raw) →
      client.Submitted raw context submitting (.ok submission) →
      (client.waitReceipt raw.transactionHash waitOptions context).Yields after receipt →
      Executed sender transaction signer waitOptions context (before ++ (submitting ++ after))
        (.ok (executionOf populated raw submission receipt))
  | failed {before submitting : List (Event Answer)} {populated : PopulatedTransaction} {raw : RawTransaction} {error : Error} :
    (client.populate sender transaction context).Yields before (.ok populated) →
      signLegacyTransaction client.keccak populated signer = some (.ok raw) →
      client.Submitted raw context submitting (.error error) →
      Executed sender transaction signer waitOptions context (before ++ submitting) (.error error)

theorem executed_execute {sender : EvmAddress} {transaction : UnsignedTransaction} {signer : Option DigestSigner}
    {waitOptions : ReceiptWaitOptions}
    {result : Result TransactionExecution}
    (h : (client.execute sender transaction signer waitOptions context).Yields events result) :
    client.Executed sender transaction signer waitOptions context events result := by
  unfold execute at h
  split_ifs at h with hsigner
  · obtain ⟨rfl, rfl⟩ := h
    exact .unsent (by simp)
  obtain ⟨error, hp, rfl⟩ | ⟨populated, before, rest, rfl, hp, h⟩ := Rpc.yields_andThen h
  · exact .unsent ((client.silent_populate sender transaction context).yields hp)
  unfold submitSigned at h
  cases hs : signLegacyTransaction client.keccak populated signer with
  | none =>
    rw [hs] at h
    obtain ⟨rfl, rfl⟩ := h
    exact .unsent (by simpa using (client.silent_populate sender transaction context).yields hp)
  | some signed =>
    rw [hs] at h
    cases signed with
    | error error =>
      obtain ⟨rfl, rfl⟩ := h
      exact .unsent (by simpa using (client.silent_populate sender transaction context).yields hp)
    | ok raw =>
      obtain ⟨error, hr, rfl⟩ | ⟨submission, submitting, after, rfl, hr, h⟩ := Rpc.yields_andThen h
      · exact .failed hp hs (client.submitted_sendRaw hr)
      obtain ⟨waiting, receipt, last, rfl, hw, rfl, rfl⟩ := yields_bind.mp h
      rw [List.append_nil]
      exact .sent hp hs (client.submitted_sendRaw hr) hw

def SubmissionReported (bytes : Bytes) (result : Result TransactionSubmission) : Prop :=
  ∃ submission, result = .ok submission ∧ client.Determines bytes submission.transactionHash

def ExecutionReported (bytes : Bytes) (result : Result TransactionExecution) : Prop :=
  ∃ execution, result = .ok execution ∧ execution.rawTransaction.bytes = bytes ∧
    client.Determines bytes execution.rawTransaction.transactionHash ∧
    client.Determines bytes execution.submission.transactionHash

section

variable {client} {bytes : Bytes} {context other : RequestContext} {id : BitVec 64} {response : Response}
  {events : List (Event Answer)}

theorem sendEvent_not_mem (h : ∀ e ∈ events, broadcast e.1 = none) : sendEvent bytes context id response ∉ events :=
  fun hm => nomatch h _ hm

variable {transaction : RawTransaction} {result : Result TransactionSubmission}

theorem Submitted.of_sendEvent
    (h : client.Submitted transaction context events result) (hm : sendEvent bytes other id response ∈ events) :
    bytes = transaction.bytes ∧ client.Determines bytes transaction.transactionHash ∧
      result = client.sendAnswer transaction.transactionHash id response := by
  cases h with
  | unsent hs => exact absurd hm (sendEvent_not_mem hs)
  | sent hs hd =>
    rcases List.mem_append.mp hm with hm | hm
    · exact absurd hm (sendEvent_not_mem hs)
    · cases List.mem_singleton.mp hm
      exact ⟨rfl, hd, rfl⟩

theorem Submitted.ok_iff
    (h : client.Submitted transaction context events result) (hm : sendEvent bytes other id response ∈ events) :
    (∃ submission, result = .ok submission) ↔ Lost response ∨ client.Acknowledged bytes id response := by
  obtain ⟨rfl, hd, rfl⟩ := h.of_sendEvent hm
  exact sendAnswer_ok_iff hd id response

theorem Submitted.determines {submission : TransactionSubmission}
    (h : client.Submitted transaction context events (.ok submission)) (hm : sendEvent bytes other id response ∈ events) :
    bytes = transaction.bytes ∧ client.Determines bytes transaction.transactionHash ∧
      submission.transactionHash = transaction.transactionHash := by
  obtain ⟨hb, hd, hr⟩ := h.of_sendEvent hm
  exact ⟨hb, hd, sendAnswer_hash hr.symm⟩

theorem Submitted.reported_iff
    (h : client.Submitted transaction context events result) (hm : sendEvent bytes other id response ∈ events) :
    client.SubmissionReported bytes result ↔ Lost response ∨ client.Acknowledged bytes id response := by
  rw [← h.ok_iff hm]
  constructor
  · rintro ⟨submission, hr, _⟩
    exact ⟨submission, hr⟩
  · rintro ⟨submission, rfl⟩
    obtain ⟨_, hd, hh⟩ := h.determines hm
    exact ⟨submission, rfl, hh ▸ hd⟩

theorem Executed.of_sendEvent {sender : EvmAddress} {transaction : UnsignedTransaction} {signer : Option DigestSigner}
    {waitOptions : ReceiptWaitOptions} {result : Result TransactionExecution}
    (h : client.Executed sender transaction signer waitOptions context events result)
    (hm : sendEvent bytes other id response ∈ events) :
    ∃ asked submitting later populated raw submitted, events = asked ++ (submitting ++ later) ∧
      (client.populate sender transaction context).Yields asked (.ok populated) ∧
      signLegacyTransaction client.keccak populated signer = some (.ok raw) ∧
      client.Submitted raw context submitting submitted ∧ sendEvent bytes other id response ∈ submitting ∧
      match submitted with
      | .error error => result = .error error
      | .ok submission => ∃ receipt, result = .ok (executionOf populated raw submission receipt) := by
  have hasked {asked : List (Event Answer)} {populated : PopulatedTransaction}
      (hp : (client.populate sender transaction context).Yields asked (.ok populated)) :
      sendEvent bytes other id response ∉ asked :=
    sendEvent_not_mem ((client.silent_populate sender transaction context).yields hp)
  cases h with
  | unsent hs => exact absurd hm (sendEvent_not_mem hs)
  | failed hp hs hr =>
    have hm := (List.mem_append.mp hm).resolve_left (hasked hp)
    exact ⟨_, _, [], _, _, _, by rw [List.append_nil], hp, hs, hr, hm, rfl⟩
  | sent hp hs hr hw =>
    have hm := (List.mem_append.mp hm).resolve_left (hasked hp)
    have hm := (List.mem_append.mp hm).resolve_right
      (sendEvent_not_mem ((client.silent_waitReceipt _ waitOptions context).yields hw))
    exact ⟨_, _, _, _, _, _, rfl, hp, hs, hr, hm, _, rfl⟩

theorem Executed.reported_iff {sender : EvmAddress} {transaction : UnsignedTransaction} {signer : Option DigestSigner}
    {waitOptions : ReceiptWaitOptions} {result : Result TransactionExecution}
    (h : client.Executed sender transaction signer waitOptions context events result)
    (hm : sendEvent bytes other id response ∈ events) :
    client.ExecutionReported bytes result ↔ Lost response ∨ client.Acknowledged bytes id response := by
  obtain ⟨_, _, _, populated, raw, submitted, -, -, -, hr, hm, hresult⟩ := h.of_sendEvent hm
  rw [← hr.ok_iff hm]
  cases submitted with
  | error error =>
    rw [hresult]
    constructor
    · rintro ⟨_, ⟨⟩, _⟩
    · rintro ⟨_, ⟨⟩⟩
  | ok submission =>
    obtain ⟨receipt, rfl⟩ := hresult
    constructor
    · intro _
      exact ⟨submission, rfl⟩
    · intro _
      obtain ⟨rfl, hd, hh⟩ := hr.determines hm
      refine ⟨_, rfl, ?_⟩
      rw [executionOf_raw, executionOf_submission, hh]
      exact ⟨rfl, hd, hd⟩

end

/-- A transaction that was handed to the transport is reported or refused exactly when the transport lost the answer, the
node refused the transaction, or the node answered with its hash. -/
theorem broadcast_reported_iff (env : Environment Shared Answer) (context other : RequestContext) (bytes : Bytes)
    (id : BitVec 64) (response : Response) :
    (∀ transaction, sendEvent bytes other id response ∈ (eval env 0 (client.sendRaw transaction context)).1 →
      ((¬client.Refused id response →
          client.SubmissionReported bytes (eval env 0 (client.sendRaw transaction context)).2) ↔
        Lost response ∨ client.Refused id response ∨ client.Acknowledged bytes id response)) ∧
    ∀ sender transaction signer waitOptions,
      sendEvent bytes other id response ∈ (eval env 0 (client.execute sender transaction signer waitOptions context)).1 →
      ((¬client.Refused id response →
          client.ExecutionReported bytes (eval env 0 (client.execute sender transaction signer waitOptions context)).2) ↔
        Lost response ∨ client.Refused id response ∨ client.Acknowledged bytes id response) := by
  constructor
  · intro transaction hm
    have h := client.submitted_sendRaw (eval_yields env 0 (client.sendRaw transaction context))
    rw [h.reported_iff hm]
    tauto
  · intro sender transaction signer waitOptions hm
    have h := client.executed_execute (eval_yields env 0 (client.execute sender transaction signer waitOptions context))
    rw [h.reported_iff hm]
    tauto

def tersely : ChainJson where
  readString
    | [] => none
    | id :: result => some ⟨ascii "2.0", id.setWidth 64, some result, none⟩
  readReceipt _ := none

def terseClient : ChainClient := ⟨{}, tersely, fun _ => .ok (wordOf 0)⟩

def terseNode (sent : Response) : Environment Shared Answer where
  state n := ⟨BitVec.ofNat 64 n, some .bnbTestnet⟩
  answer _
    | .post ⟨_, .sendRaw _⟩ _ => sent
    | .post ⟨id, _⟩ _ => .ok ⟨200, id.setWidth 8 :: ascii "0x1", []⟩
    | .now after => ⟨after, le_refl after⟩
    | .wait _ => none
    | .stopRequested => true
    | .progress _ => ()

def badGateway : Response := .ok ⟨502, ascii "<html>", []⟩

def connectionReset : Response := .error ⟨⟨.readFailure, ascii "connection reset", [], 0, 0⟩, by decide⟩

def sampleSigner : DigestSigner := fun _ => some (.ok (ascii "0x" ++ List.replicate 128 (byte '0') ++ ascii "1b"))

def samplePayment : UnsignedTransaction := ⟨.filled 1, ascii "0x", .zero⟩

def sampleExecution (sent : Response) : List (Event Answer) × Result TransactionExecution :=
  eval (terseNode sent) 0 (terseClient.execute (.filled 2) samplePayment (some sampleSigner) {} ⟨none⟩)

def signedPayment : Bytes := ascii "0xde010102940101010101010101010101010101010101010101808081e58080"

theorem sendEvent_of_terseNode {sent : Response} {bytes : Bytes} {α : Type} {program : Rpc α}
    (h : (eval (terseNode sent) 0 program).1.filterMap (fun e => broadcast e.1) = [bytes]) :
    ∃ context id, sendEvent bytes context id sent ∈ (eval (terseNode sent) 0 program).1 := by
  obtain ⟨⟨query, answer⟩, hm, hb⟩ := List.mem_filterMap.mp (h ▸ List.mem_singleton_self bytes)
  obtain ⟨k, hk⟩ := eval_answer hm
  cases query with
  | post request context =>
    obtain ⟨id, call⟩ := request
    cases call with
    | sendRaw other =>
      cases hb
      cases hk
      exact ⟨context, id, hm⟩
    | _ => cases hb
  | _ => cases hb

/-- A gateway's error page after the transaction went out: the bytes and their hash are not reported. -/
theorem gateway_error_unreported :
    ∃ context id, sendEvent signedPayment context id badGateway ∈ (sampleExecution badGateway).1 ∧
      ¬terseClient.Refused id badGateway ∧ ¬terseClient.ExecutionReported signedPayment (sampleExecution badGateway).2 := by
  have hs : (sampleExecution badGateway).1.filterMap (fun e => broadcast e.1) = [signedPayment] := by decide +kernel
  obtain ⟨context, id, hm⟩ := sendEvent_of_terseNode hs
  have hr : (sampleExecution badGateway).2 =
      .error ⟨.httpServerError, ascii "BNB JSON-RPC returned a non-200 status", [], 502, 0⟩ := by decide +kernel
  refine ⟨context, id, hm, ?_, ?_⟩
  · rintro ⟨wire, hw, _, _, he⟩
    cases hw
    cases he
  · rw [hr]
    rintro ⟨execution, ⟨⟩, _⟩

theorem broken_connection_reported :
    terseClient.ExecutionReported signedPayment (sampleExecution connectionReset).2 := by
  have hs : (sampleExecution connectionReset).1.filterMap (fun e => broadcast e.1) = [signedPayment] := by decide +kernel
  obtain ⟨context, id, hm⟩ := sendEvent_of_terseNode hs
  exact ((terseClient.broadcast_reported_iff (terseNode connectionReset) ⟨none⟩ context signedPayment id connectionReset).2
    _ _ _ _ hm).mpr (Or.inl trivial) (fun h => h)

end ChainClient

end PredictFun.Chain
