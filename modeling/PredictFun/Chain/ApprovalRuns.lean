import PredictFun.Chain.Execution

namespace PredictFun.Chain.ChainClient

open Base Program

structure Collected (acc steps unique : List ApprovalStep) : Prop where
  kept : acc <+: unique
  sublist : unique.Sublist (acc ++ steps)
  nodup : (unique.map ApprovalStep.id).Nodup
  covers : ∀ step ∈ steps, ∃ first ∈ unique, first.id = step.id
  first : ∀ before step after, steps = before ++ step :: after →
    (∀ other ∈ acc ++ before, other.id ≠ step.id) → step ∈ unique

theorem foldl_collected (steps acc : List ApprovalStep) (h : (acc.map ApprovalStep.id).Nodup) :
    Collected acc steps (steps.foldl (fun unique candidate =>
      if unique.any (fun existing => existing.id = candidate.id) then unique else unique ++ [candidate]) acc) := by
  induction steps generalizing acc with
  | nil => exact ⟨List.prefix_refl _, by simp, h, by simp, by simp⟩
  | cons step steps ih =>
    rw [List.foldl_cons]
    by_cases hseen : acc.any (fun existing => existing.id = step.id) = true
    · rw [if_pos hseen]
      obtain ⟨kept, sublist, nodup, covers, first⟩ := ih acc h
      obtain ⟨existing, hm, he⟩ := List.any_eq_true.mp hseen
      have hid : existing.id = step.id := of_decide_eq_true he
      refine ⟨kept, sublist.trans ?_, nodup, ?_, ?_⟩
      · exact (List.sublist_cons_self step steps).append_left acc
      · intro candidate hc
        rcases List.mem_cons.mp hc with rfl | hc
        · exact ⟨existing, kept.subset hm, hid⟩
        · exact covers candidate hc
      · intro before candidate after hsplit hnew
        cases before with
        | nil =>
          cases hsplit
          exact absurd hid (hnew existing (by simpa using hm))
        | cons head before =>
          cases hsplit
          refine first before candidate after rfl (fun other ho => hnew other ?_)
          rcases List.mem_append.mp ho with ho | ho
          · exact List.mem_append_left _ ho
          · exact List.mem_append_right _ (List.mem_cons_of_mem _ ho)
    · rw [if_neg hseen]
      have hfresh : ∀ other ∈ acc, other.id ≠ step.id := by
        intro other ho he
        exact hseen (List.any_eq_true.mpr ⟨other, ho, decide_eq_true he⟩)
      have hnext : ((acc ++ [step]).map ApprovalStep.id).Nodup := by
        rw [List.map_append, List.nodup_append]
        refine ⟨h, List.nodup_singleton _, ?_⟩
        rintro id hid other hother rfl
        obtain ⟨existing, hm, rfl⟩ := List.mem_map.mp hid
        exact hfresh existing hm (List.mem_singleton.mp hother)
      obtain ⟨kept, sublist, nodup, covers, first⟩ := ih (acc ++ [step]) hnext
      refine ⟨(List.prefix_append acc [step]).trans kept, by simpa using sublist, nodup, ?_, ?_⟩
      · intro candidate hc
        rcases List.mem_cons.mp hc with rfl | hc
        · exact ⟨candidate, kept.subset (by simp), rfl⟩
        · exact covers candidate hc
      · intro before candidate after hsplit hnew
        cases before with
        | nil =>
          cases hsplit
          exact kept.subset (by simp)
        | cons head before =>
          cases hsplit
          refine first before candidate after rfl (fun other ho => hnew other ?_)
          simpa [or_assoc] using ho

theorem uniqueSteps_collected (steps : List ApprovalStep) : Collected [] steps (uniqueSteps steps) :=
  foldl_collected steps [] (by simp)

section

variable (client : ChainClient) (run : ApprovalRun)

def Notes (events : List (Event Answer)) : Prop := ∀ event ∈ events, ∃ note, event.1 = .progress note

def precheck (step : ApprovalStep) : Rpc (Result Bool) :=
  client.read step.token (client.approvalData run.owner step) (run.satisfied step) run.context

inductive Unsettled (step : ApprovalStep) : List (Event Answer) → Prop
  | unchecked (hs : run.options.skipSatisfied = false) : Unsettled step []
  | checked {notes reading : List (Event Answer)} {result : Result Bool} (hs : run.options.skipSatisfied = true)
      (hn : Notes notes) (hr : (precheck client run step).Yields reading result) (hu : result ≠ .ok true) :
      Unsettled step (notes ++ reading)

def Concludes (step : ApprovalStep) (executed : Result TransactionExecution) (result : ApprovalStepResult) : Prop :=
  result.step = step ∧ (result.state = .failed ∨ result.state = .confirmed ∧ ∃ execution, executed = .ok execution ∧
    execution.confirmedSuccess = true ∧ result.transaction = some execution)

/-- How the run of a step can go: it is cancelled, its pre-check shows it satisfied, its transaction cannot be
built, or its transaction is executed, once. -/
inductive StepRun (step : ApprovalStep) : List (Event Answer) → ApprovalStepResult → Prop
  | cancelled {notes : List (Event Answer)} {error : Error} (hn : Notes notes) :
    StepRun step (⟨.stopRequested, true⟩ :: notes) ⟨step, .failed, none, some error⟩
  | skipped {notes reading later : List (Event Answer)} (hn : Notes notes)
      (hr : (precheck client run step).Yields reading (.ok true)) (hl : Notes later) :
    StepRun step (⟨.stopRequested, false⟩ :: (notes ++ (reading ++ later))) ⟨step, .skipped, none, none⟩
  | unbuilt {before notes : List (Event Answer)} {error : Error} (hu : Unsettled client run step before)
      (hn : Notes notes) :
    StepRun step (⟨.stopRequested, false⟩ :: (before ++ notes)) ⟨step, .failed, none, some error⟩
  | executed {before notes executing later : List (Event Answer)} {transaction : UnsignedTransaction}
      {executed : Result TransactionExecution} {result : ApprovalStepResult} (hu : Unsettled client run step before)
      (hn : Notes notes)
      (he : (client.execute run.transactionSender transaction run.signer run.options.receiptWait run.context).Yields
        executing executed)
      (hl : Notes later) (hc : Concludes step executed result) :
    StepRun step (⟨.stopRequested, false⟩ :: (before ++ (notes ++ (executing ++ later)))) result

variable {client run} {step : ApprovalStep} {events : List (Event Answer)}

theorem notes_notify {note : ApprovalProgress} {value : Unit} (h : (run.notify note).Yields events value) :
    Notes events := by
  unfold ApprovalRun.notify at h
  split_ifs at h
  · obtain ⟨answer, rest, rfl, rfl, -⟩ := h
    intro event he
    obtain rfl := List.mem_singleton.mp he
    exact ⟨note, rfl⟩
  · obtain ⟨rfl, -⟩ := h
    simp [Notes]

variable {result : ApprovalStepResult} {steps : List ApprovalStep}

theorem yields_failCurrent {error : Error}
    (h : (run.failCurrent step error).Yields events result) :
    Notes events ∧ result = ⟨step, .failed, none, some error⟩ := by
  obtain ⟨first, value, rest, rfl, hn, rfl, rfl⟩ := yields_bind.mp h
  rw [List.append_nil]
  exact ⟨notes_notify hn, rfl⟩

theorem yields_submitted {executed : Result TransactionExecution}
    (h : (run.submitted step executed).Yields events result) : Notes events ∧ Concludes step executed result := by
  unfold ApprovalRun.submitted at h
  cases executed with
  | error error =>
    obtain ⟨hn, rfl⟩ := yields_failCurrent h
    exact ⟨hn, rfl, Or.inl rfl⟩
  | ok execution =>
    dsimp only at h
    split_ifs at h with hconfirmed
    · obtain ⟨first, value, rest, rfl, hn, rfl, rfl⟩ := yields_bind.mp h
      rw [List.append_nil]
      exact ⟨notes_notify hn, rfl, Or.inl rfl⟩
    · obtain ⟨first, value, rest, rfl, hn, rfl, rfl⟩ := yields_bind.mp h
      rw [List.append_nil]
      exact ⟨notes_notify hn, rfl, Or.inr ⟨rfl, execution, rfl, by simpa using hconfirmed, rfl⟩⟩

theorem stepRun_submit {before : List (Event Answer)}
    (hu : Unsettled client run step before) (h : (run.submit client step).Yields events result) :
    StepRun client run step (⟨.stopRequested, false⟩ :: (before ++ events)) result := by
  unfold ApprovalRun.submit at h
  split at h
  · obtain ⟨hn, rfl⟩ := yields_failCurrent h
    exact .unbuilt hu hn
  · obtain ⟨notes, told, rest, rfl, hn, hrest⟩ := yields_bind.mp h
    obtain ⟨executing, executed, later, rfl, he, hlater⟩ := yields_bind.mp hrest
    obtain ⟨hl, hc⟩ := yields_submitted hlater
    exact .executed hu (notes_notify hn) he hl hc

theorem stepRun_runStep (h : (run.runStep client step).Yields events result) :
    StepRun client run step events result := by
  unfold ApprovalRun.runStep at h
  obtain ⟨asked, stop, rest, rfl, ⟨answer, tail, rfl, rfl, rfl⟩, hrest⟩ := yields_bind.mp h
  cases stop with
  | true =>
    rw [if_pos rfl] at hrest
    obtain ⟨hn, rfl⟩ := yields_failCurrent hrest
    exact .cancelled hn
  | false =>
    rw [if_neg Bool.false_ne_true] at hrest
    split_ifs at hrest with hskip
    · unfold ApprovalRun.checkOrSubmit at hrest
      obtain ⟨notes, told, tail, rfl, hn, htail⟩ := yields_bind.mp hrest
      obtain ⟨reading, read, later, rfl, hr, hlater⟩ := yields_bind.mp htail
      by_cases hread : read = .ok true
      · subst hread
        obtain ⟨notes', told', last, rfl, hl, rfl, rfl⟩ := yields_bind.mp hlater
        have hstep : StepRun client run step (⟨.stopRequested, false⟩ :: (notes ++ (reading ++ notes')))
            ⟨step, .skipped, none, none⟩ := .skipped (notes_notify hn) hr (notes_notify hl)
        rwa [List.append_nil]
      · have hu : Unsettled client run step (notes ++ reading) := .checked hskip (notes_notify hn) hr hread
        have hsubmit : (run.submit client step).Yields later result := by
          cases read with
          | error error => exact hlater
          | ok value =>
            cases value with
            | true => exact absurd rfl hread
            | false => exact hlater
        have hstep := stepRun_submit hu hsubmit
        rwa [List.append_assoc] at hstep
    · exact stepRun_submit (.unchecked (by simpa using hskip)) hrest

theorem StepRun.step_eq (h : StepRun client run step events result) :
    result.step = step := by
  cases h with
  | cancelled | skipped | unbuilt => rfl
  | executed hu hn he hl hc => exact hc.1

variable (client run) in
/-- What the report of a list of steps tells about them, one after the other. -/
structure Processed (steps : List ApprovalStep) (events : List (Event Answer)) (results : List ApprovalStepResult)
    (segments : List (List (Event Answer))) : Prop where
  -- the steps follow each other, and at the end there is at most one look at the stop token
  events_eq : ∃ last, events = segments.flatten ++ last ∧ ∀ event ∈ last, event.1 = .stopRequested
  order : results.map ApprovalStepResult.step <+: steps
  stepRuns : List.Forall₂ (fun result segment => StepRun client run result.step segment result) results segments
  -- only a failed step can cut the report short, and then it is the last one
  whole : results.map ApprovalStepResult.step = steps ∨
    run.options.stopOnError = true ∧ ∃ result ∈ results, result.state = .failed
  stops : run.options.stopOnError = true → ∀ result ∈ results.dropLast, result.state ≠ .failed

theorem yields_runSteps {finished : List ApprovalStepResult} {report : ApprovalRunReport}
    (h : (run.runSteps client steps finished).Yields events report) :
    ∃ results segments, report = ApprovalRun.finish (finished ++ results) ∧
      Processed client run steps events results segments := by
  induction steps generalizing finished events with
  | nil =>
    obtain ⟨asked, stop, rest, rfl, ⟨answer, tail, rfl, rfl, rfl⟩, rfl, rfl⟩ := yields_bind.mp h
    refine ⟨[], [], by rw [List.append_nil], ⟨[⟨.stopRequested, stop⟩], by simp, by simp⟩, by simp, .nil, Or.inl rfl, by simp⟩
  | cons step rest ih =>
    obtain ⟨segment, result, later, rfl, hstep, hlater⟩ := yields_bind.mp h
    have hrun := stepRun_runStep hstep
    have hsame := hrun.step_eq
    have hrun' : StepRun client run result.step segment result := hsame.symm ▸ hrun
    by_cases hcut : result.state = .failed ∧ run.options.stopOnError = true
    · rw [if_pos hcut] at hlater
      obtain ⟨rfl, rfl⟩ := hlater
      refine ⟨[result], [segment], rfl, ⟨[], by simp, by simp⟩, by simp [hsame], .cons hrun' .nil,
        Or.inr ⟨hcut.2, result, by simp, hcut.1⟩, by simp⟩
    · rw [if_neg hcut] at hlater
      obtain ⟨results, segments, rfl, ⟨last, rfl, hlast⟩, horder, hruns, hwhole, hstops⟩ := ih hlater
      refine ⟨result :: results, segment :: segments, by simp, ⟨last, by simp, hlast⟩, ?_, .cons hrun' hruns, ?_, ?_⟩
      · simpa [hsame] using horder
      · rcases hwhole with hwhole | ⟨hon, failed, hm, hf⟩
        · exact Or.inl (by simp [hsame, hwhole])
        · exact Or.inr ⟨hon, failed, List.mem_cons_of_mem _ hm, hf⟩
      · intro hon other ho
        cases results with
        | nil => simp at ho
        | cons head results =>
          rcases List.mem_cons.mp ho with rfl | ho
          · exact fun hf => hcut ⟨hf, hon⟩
          · exact hstops hon other ho

theorem Processed.nodup {results : List ApprovalStepResult}
    {segments : List (List (Event Answer))} (h : Processed client run steps events results segments)
    (hn : (steps.map ApprovalStep.id).Nodup) : (results.map (fun result => result.step.id)).Nodup := by
  have hids : results.map (fun result => result.step.id) = (results.map ApprovalStepResult.step).map ApprovalStep.id := by
    rw [List.map_map]
    rfl
  rw [hids]
  exact hn.sublist (h.order.sublist.map _)

def Settled (result : ApprovalStepResult) : Prop := result.state = .skipped ∨ result.state = .confirmed

theorem Processed.success_iff {results : List ApprovalStepResult}
    {segments : List (List (Event Answer))} (h : Processed client run steps events results segments)
    (hn : (steps.map ApprovalStep.id).Nodup) :
    (ApprovalRun.finish results).success = true ↔
      ∀ step ∈ steps, ∃ result ∈ results, result.step = step ∧ Settled result := by
  have hall : (ApprovalRun.finish results).success = true ↔ ∀ result ∈ results, Settled result := by
    simp [ApprovalRun.finish, Settled]
  rw [hall]
  constructor
  · intro hsettled step hstep
    have hwhole : results.map ApprovalStepResult.step = steps := by
      refine h.whole.resolve_right ?_
      rintro ⟨-, result, hm, hf⟩
      rcases hsettled result hm with hs | hs <;> rw [hf] at hs <;> cases hs
    rw [← hwhole] at hstep
    obtain ⟨result, hm, rfl⟩ := List.mem_map.mp hstep
    exact ⟨result, hm, rfl, hsettled result hm⟩
  · intro hsteps result hm
    have hstep : result.step ∈ steps := h.order.subset (List.mem_map_of_mem hm)
    obtain ⟨other, ho, hsame, hsettled⟩ := hsteps result.step hstep
    -- with distinct ids there is one result for each step
    obtain rfl : other = result :=
      List.inj_on_of_nodup_map (h.nodup hn) ho hm (congrArg ApprovalStep.id hsame)
    exact hsettled

end

section

variable {client : ChainClient} {run : ApprovalRun} {step : ApprovalStep} {events : List (Event Answer)}

def GivesReceipt (client : ChainClient) (hash : Bytes) (receipt : TransactionReceipt) : (query : Query) → Answer query → Prop
  | .post ⟨id, .receipt asked⟩ _, response => asked = hash ∧ client.receiptAnswer hash id response = .ok (some receipt)
  | _, _ => False

theorem guarded_receipt (client : ChainClient) (hash : Bytes) (receipt : TransactionReceipt) (context : RequestContext) :
    (client.receipt hash context).Guarded (fun _ => True) (fun _ => True) (GivesReceipt client hash receipt)
      (fun result => result ≠ .ok (some receipt)) := by
  unfold ChainClient.receipt
  split_ifs
  · exact fun h => nomatch h
  refine Rpc.guarded_andThen (guarded_true _) (fun error _ h => (nomatch h)) (fun _ _ => ?_)
  exact fun s _ => ⟨trivial, trivial, fun response hn hr => hn ⟨rfl, hr⟩⟩

theorem yields_waitReceipt_ok {hash : Bytes} {options : ReceiptWaitOptions} {context : RequestContext}
    {receipt : TransactionReceipt} (h : (client.waitReceipt hash options context).Yields events (.ok receipt)) :
    ∃ id other response, (⟨.post ⟨id, .receipt hash⟩ other, response⟩ : Event Answer) ∈ events ∧
      client.receiptAnswer hash id response = .ok (some receipt) := by
  have hends : WaitEnds (fun result => result ≠ .ok (some receipt)) (fun result => result ≠ .ok receipt) := by
    refine ⟨fun _ _ h => (nomatch h), fun found hf h => ?_, fun _ _ h => (nomatch h)⟩
    unfold receiptResult at h
    split_ifs at h <;> cases h
    exact hf rfl
  have hguarded := guarded_waitReceipt hends trivial (fun _ => trivial) (fun _ => trivial)
    (guarded_receipt client hash receipt) options context
  by_contra hnone
  refine (hguarded.yields h ?_).2 rfl
  rintro ⟨query, answer⟩ hm hknown
  cases query with
  | post request other =>
    obtain ⟨id, call⟩ := request
    cases call with
    | receipt asked =>
      obtain ⟨rfl, hr⟩ := hknown
      exact hnone ⟨id, other, answer, hm, hr⟩
    | _ => exact False.elim hknown
  | _ => exact False.elim hknown

def ShownSatisfied (client : ChainClient) (run : ApprovalRun) (step : ApprovalStep) (events : List (Event Answer)) : Prop :=
  ∃ data value before reading after, events = before ++ (reading ++ after) ∧
    client.approvalData run.owner step = .ok data ∧
    (client.call ⟨step.token, data, none⟩ .latest run.context).Yields reading (.ok value) ∧
    run.satisfied step value = .ok true

def ShownConfirmed (client : ChainClient) (result : ApprovalStepResult) (events : List (Event Answer)) : Prop :=
  ∃ execution receipt id hash other response, result.transaction = some execution ∧ execution.receipt = some receipt ∧
    receipt.confirmedSuccess = true ∧ hash = execution.rawTransaction.transactionHash ∧
    (⟨.post ⟨id, .receipt hash⟩ other, response⟩ : Event Answer) ∈ events ∧
    client.receiptAnswer hash id response = .ok (some receipt)

variable {result : ApprovalStepResult}

theorem StepRun.skipped_shown (h : StepRun client run step events result)
    (hs : result.state = .skipped) : ShownSatisfied client run step events := by
  cases h with
  | cancelled => cases hs
  | unbuilt => cases hs
  | @skipped notes reading later hn hr hl =>
    unfold precheck ChainClient.read at hr
    cases hdata : client.approvalData run.owner step with
    | error error =>
      rw [hdata] at hr
      obtain ⟨-, hr⟩ := hr
      cases hr
    | ok data =>
      rw [hdata] at hr
      obtain ⟨error, -, he⟩ | ⟨value, before, after, rfl, hc, rfl, hd⟩ := Rpc.yields_andThen hr
      · cases he
      · exact ⟨data, value, ⟨.stopRequested, false⟩ :: notes, before, later, by simp, hdata, hc, hd.symm⟩
  | executed hu hn he hl hc =>
    rcases hc.2 with hf | ⟨hf, -⟩ <;> rw [hf] at hs <;> cases hs

theorem StepRun.confirmed_shown (h : StepRun client run step events result)
    (hs : result.state = .confirmed) : ShownConfirmed client result events := by
  cases h with
  | cancelled => cases hs
  | unbuilt => cases hs
  | skipped => cases hs
  | @executed before notes executing later transaction executed result hu hn he hl hc =>
    obtain hf | ⟨-, execution, rfl, hconfirmed, htransaction⟩ := hc.2
    · rw [hf] at hs
      cases hs
    cases client.executed_execute he with
    | @sent asked submitting waiting populated raw submission receipt hp hsign hr hw =>
      cases receipt with
      | error error => simp [executionOf, TransactionExecution.confirmedSuccess] at hconfirmed
      | ok receipt =>
        obtain ⟨id, other, response, hm, ha⟩ := yields_waitReceipt_ok hw
        have hstatus : receipt.confirmedSuccess = true := by
          simpa [executionOf, TransactionExecution.confirmedSuccess] using hconfirmed
        exact ⟨_, receipt, id, raw.transactionHash, other, response, htransaction, rfl, hstatus, rfl, by simp [hm], ha⟩

theorem Notes.silent {notes : List (Event Answer)} (h : Notes notes) :
    notes.filterMap (fun event => broadcast event.1) = [] := by
  apply filterMap_broadcast
  intro event he
  obtain ⟨note, hnote⟩ := h event he
  rw [hnote]
  rfl

theorem silent_precheck (step : ApprovalStep) : Silent (precheck client run step) := by
  unfold precheck ChainClient.read
  split
  · exact silent_done _
  · exact (client.silent_checkedRequest (fun _ _ => rfl) _ _).andThen (fun _ => silent_done _)

theorem StepRun.broadcasts (h : StepRun client run step events result) :
    (events.filterMap (fun event => broadcast event.1)).length ≤ 1 := by
  have quiet {before : List (Event Answer)} (hu : Unsettled client run step before) :
      before.filterMap (fun event => broadcast event.1) = [] := by
    cases hu with
    | unchecked => rfl
    | checked hs hn hr hu =>
      rw [List.filterMap_append, hn.silent, filterMap_broadcast ((silent_precheck step).yields hr), List.append_nil]
  have hlook : broadcast .stopRequested = none := rfl
  cases h with
  | cancelled hn => simp [hlook, hn.silent]
  | skipped hn hr hl =>
    simp [List.filterMap_append, hlook, hn.silent, hl.silent,
      filterMap_broadcast ((silent_precheck step).yields hr)]
  | unbuilt hu hn => simp [List.filterMap_append, hlook, quiet hu, hn.silent]
  | executed hu hn he hl hc =>
    have := (client.executed_execute he).broadcasts
    simpa [List.filterMap_cons, List.filterMap_append, hlook, quiet hu, hn.silent, hl.silent] using this

end

theorem approval_runs_report_truth (client : ChainClient) (env : Environment Shared Answer) (run : ApprovalRun)
    (steps : List ApprovalStep) (hsigner : run.signer.isSome = true) :
    ((uniqueSteps steps).Sublist steps ∧ ((uniqueSteps steps).map ApprovalStep.id).Nodup ∧
      ∀ before step after, steps = before ++ step :: after → (∀ other ∈ before, other.id ≠ step.id) →
        step ∈ uniqueSteps steps) ∧
    (∃ report segments, (eval env 0 (client.runApprovals run steps)).2 = .ok report ∧
      Processed client run (uniqueSteps steps) (eval env 0 (client.runApprovals run steps)).1 report.steps segments ∧
      List.Forall₂ (fun result segment =>
        (segment.filterMap (fun event => broadcast event.1)).length ≤ 1 ∧
          (result.state = .skipped → ShownSatisfied client run result.step segment) ∧
          (result.state = .confirmed → ShownConfirmed client result segment)) report.steps segments ∧
      (report.success = true ↔
        ∀ step ∈ uniqueSteps steps, ∃ result ∈ report.steps, result.step = step ∧ Settled result)) ∧
    ∀ inputs index, client.Started inputs index (.runApprovals run steps) →
      ((client.run inputs).log.filterMap (Entry.completionOf index)).length ≤ 1 := by
  obtain ⟨-, hsublist, hnodup, -, hfirst⟩ := uniqueSteps_collected steps
  refine ⟨⟨hsublist, hnodup, ?_⟩, ?_, ?_⟩
  · intro before step after hsplit hnew
    exact hfirst before step after hsplit hnew
  · have hunfold : client.runApprovals run steps
        = (run.runSteps client (uniqueSteps steps) []).bind (fun report => .done (.ok report)) := by
      rw [runApprovals, if_neg (by simpa [Option.isSome_iff_ne_none] using hsigner)]
      rfl
    have hyields := eval_yields env 0 (client.runApprovals run steps)
    rw [hunfold] at hyields ⊢
    obtain ⟨events, report, rest, he, hrun, rfl, hreply⟩ := yields_bind.mp hyields
    obtain ⟨results, segments, rfl, hprocessed⟩ := yields_runSteps hrun
    rw [List.append_nil] at he
    rw [List.nil_append] at hreply
    refine ⟨_, segments, hreply, ?_, ?_, hprocessed.success_iff hnodup⟩
    · rw [he]
      exact hprocessed
    · refine hprocessed.stepRuns.imp ?_
      intro result segment hstep
      exact ⟨hstep.broadcasts, hstep.skipped_shown, hstep.confirmed_shown⟩
  · intro inputs index hstarted
    obtain ⟨task, ht, -⟩ := hstarted.origin rfl
    have hrecorded := Tasks.run_recorded (A := Answer) (α := Reply) ({} : Shared)
      (inputs.flatMap (ChainInput.tasks client)) index
    change Tasks.Recorded index (client.run inputs).log (client.run inputs).tasks[index]? at hrecorded
    rw [ht] at hrecorded
    rw [hrecorded.2.2.2]
    exact task.length_result_le

def sampleStep : ApprovalStep := ⟨[1], .erc20Allowance, .filled 3, .filled 4, [], []⟩

def sampleRun : ApprovalRun where
  owner := .filled 2
  transactionSender := .filled 2
  route := {}
  signer := some sampleSigner
  options := { skipSatisfied := false }
  progress := false
  context := ⟨some 1000⟩

def receiptEnv : Environment Shared Answer := ⟨fun _ => {}, fun _ => receiptNode⟩

theorem repeated_step_runs_once :
    ∃ report, (eval receiptEnv 0 (receiptClient.runApprovals sampleRun [sampleStep, sampleStep])).2 = .ok report ∧
      report.success = true ∧ report.steps.map ApprovalStepResult.state = [.confirmed] ∧
      ∀ step ∈ uniqueSteps [sampleStep, sampleStep], ∃ result ∈ report.steps, result.step = step ∧ Settled result := by
  obtain ⟨-, ⟨report, segments, hreport, -, -, hsuccess⟩, -⟩ :=
    receiptClient.approval_runs_report_truth receiptEnv sampleRun [sampleStep, sampleStep] rfl
  have hrun : (eval receiptEnv 0 (receiptClient.runApprovals sampleRun [sampleStep, sampleStep])).2.map
      (fun report => (report.success, report.steps.map ApprovalStepResult.state)) = .ok (true, [.confirmed]) := by
    decide +kernel
  rw [hreport] at hrun
  obtain ⟨htrue, hstates⟩ := Prod.mk.inj (Except.ok.inj hrun)
  exact ⟨report, hreport, htrue, hstates, hsuccess.mp htrue⟩

end PredictFun.Chain.ChainClient
