import PredictFun.Base.Join
import PredictFun.Chain.FailClosed

namespace PredictFun.Chain

open Base

structure ApprovalRead where
  index : ℕ
  step : ApprovalStep
  request : CallRequest

structure FinishedRead where
  index : ℕ
  step : ApprovalStep
  -- nothing was asked when the call data could not be encoded
  request : Option CallRequest
  wire : Result Bytes

def FinishedRead.result (read : FinishedRead) : Result ApprovalCheck := read.wire >>= ChainClient.approvalCheck read.step

inductive CheckEvent
  | read (read : FinishedRead)
  -- there is no result when an empty slot had to be read for it
  | handled (final : Option (Result (List ApprovalCheck)))

/-- The issuing loop of `async_check_approvals` at its next index, and the state that the callbacks share. -/
structure Checking where
  state : Join Error ApprovalCheck
  next : ℕ
  pending : List ApprovalRead
  log : List CheckEvent

/-- A callback may run inside the call that it belongs to, or at any later time. -/
inductive CheckInput
  | issue
  | answer (index : ℕ) (wire : Result Bytes)

namespace Checking

def start (steps : List ApprovalStep) : Checking :=
  if steps = [] then ⟨Join.fresh 0, 0, [], [.handled (some (.ok []))]⟩ else ⟨Join.fresh steps.length, 0, [], []⟩

def complete (x : Checking) (read : FinishedRead) : Checking :=
  let completion := x.state.complete read.index read.result
  { x with
    state := completion.1
    log := x.log ++ .read read :: (completion.2.map CheckEvent.handled).toList }

section

variable (client : ChainClient) (owner : EvmAddress) (steps : List ApprovalStep)

def step (x : Checking) : CheckInput → Checking
  | .issue =>
    match steps[x.next]? with
    | none => x
    | some step =>
      match client.approvalData owner step with
      | .error error => { x.complete ⟨x.next, step, none, .error error⟩ with next := x.next + 1 }
      | .ok data => { x with next := x.next + 1, pending := x.pending ++ [⟨x.next, step, ⟨step.token, data, none⟩⟩] }
  | .answer index wire =>
    match x.pending.find? (fun read => read.index = index) with
    | none => x
    | some read =>
      { x with pending := x.pending.eraseP (fun read => read.index = index) }.complete
        ⟨read.index, read.step, some read.request, wire⟩

def run (inputs : List CheckInput) : Checking := Runs.run (step client owner steps) (start steps) inputs

def Finished (x : Checking) : Prop := x.next = steps.length ∧ x.pending = []

def Asked (read : FinishedRead) : Prop :=
  steps[read.index]? = some read.step ∧
    match client.approvalData owner read.step with
    | .error error => read.request = none ∧ read.wire = .error error
    | .ok data => read.request = some ⟨read.step.token, data, none⟩

def completions (reads : List FinishedRead) : List (ℕ × Result ApprovalCheck) :=
  reads.map (fun read => (read.index, read.result))

structure Valid (reads : List FinishedRead) (x : Checking) : Prop where
  asked : ∀ read ∈ reads, Asked client owner steps read
  out : ∀ read ∈ x.pending, ∀ wire, Asked client owner steps ⟨read.index, read.step, some read.request, wire⟩
  next : x.next ≤ steps.length
  indices : (reads.map FinishedRead.index ++ x.pending.map ApprovalRead.index).Perm (List.range x.next)
  state : Join.Holds steps.length (completions reads) x.state
  waiting : reads.length < steps.length → x.log = reads.map .read
  handled : reads.length = steps.length →
    ∃ final, x.log = reads.map .read ++ [.handled (some final)] ∧ Join.Joined (completions reads) final

end

variable {client : ChainClient} {owner : EvmAddress} {steps : List ApprovalStep} {reads : List FinishedRead} {x : Checking}

theorem completions_append (read : FinishedRead) :
    completions (reads ++ [read]) = completions reads ++ [(read.index, read.result)] := by
  rw [completions, List.map_append]
  rfl

theorem fst_completions (reads : List FinishedRead) : (completions reads).map Prod.fst = reads.map FinishedRead.index := by
  rw [completions, List.map_map]
  rfl

theorem start_valid (h : steps ≠ []) : Valid client owner steps [] (start steps) := by
  have hpos := List.length_pos_iff.mpr h
  rw [start, if_neg h]
  exact ⟨by simp, by simp, Nat.zero_le _, by simp, Join.fresh_holds hpos, fun _ => rfl,
    fun hl => absurd hl (by rw [List.length_nil]; omega)⟩

theorem Valid.after_completion (h : Valid client owner steps reads x) {read : FinishedRead} {next : ℕ}
    {pending : List ApprovalRead} (hread : Asked client owner steps read) (hpending : pending ⊆ x.pending)
    (hnext : next ≤ steps.length)
    (hperm : ((reads ++ [read]).map FinishedRead.index ++ pending.map ApprovalRead.index).Perm (List.range next)) :
    Valid client owner steps (reads ++ [read]) { x.complete read with next := next, pending := pending } := by
  have hlength := hperm.length_eq
  rw [List.length_append, List.length_map, List.length_map, List.length_append, List.length_singleton,
    List.length_range] at hlength
  have hindex : read.index < steps.length := by
    have hmem : read.index ∈ List.range next := hperm.mem_iff.mp (by simp)
    exact (List.mem_range.mp hmem).trans_le hnext
  have hfree : read.index ∉ (completions reads).map Prod.fst := by
    have hnodup := (List.nodup_append.mp (hperm.nodup_iff.mpr List.nodup_range)).1
    rw [List.map_append, List.nodup_append] at hnodup
    rw [fst_completions]
    exact fun hm => hnodup.2.2 _ hm _ (by simp) rfl
  have hless : (completions reads).length < steps.length := by
    rw [completions, List.length_map]
    omega
  have hlog := h.waiting (by omega)
  obtain ⟨hstate, hcall⟩ := h.state.complete read.result hindex hfree hless
  rw [completions, List.length_map] at hcall
  have hafter : (x.complete read).log =
      (reads ++ [read]).map .read ++ ((x.state.complete read.index read.result).2.map CheckEvent.handled).toList := by
    rw [complete, hlog, List.map_append, List.append_assoc]
    rfl
  refine ⟨?_, fun r hr => h.out r (hpending hr), hnext, hperm, ?_, fun hl => ?_, fun hl => ?_⟩
  · intro r hr
    rcases List.mem_append.mp hr with hr | hr
    · exact h.asked r hr
    · rw [List.mem_singleton.mp hr]
      exact hread
  · rw [completions_append]
    exact hstate
  · rw [List.length_append, List.length_singleton] at hl
    change (x.complete read).log = _
    rw [hafter, hcall, if_neg (by omega)]
    exact List.append_nil _
  · rw [List.length_append, List.length_singleton] at hl
    have hall : ((completions (reads ++ [read])).map Prod.fst).Perm (List.range steps.length) := by
      have hnil : pending = [] := List.length_eq_zero_iff.mp (by omega)
      rw [hnil, List.map_nil, List.append_nil] at hperm
      rw [fst_completions, show steps.length = next by omega]
      exact hperm
    rw [completions_append] at hall ⊢
    obtain ⟨final, hfinal, hjoined⟩ := (h.state.toCollected.store read.result hindex hfree).final hall
    refine ⟨final, ?_, hjoined⟩
    change (x.complete read).log = _
    rw [hafter, hcall, if_pos hl, hfinal]
    rfl

theorem Valid.issue (h : Valid client owner steps reads x) :
    ∃ reads, Valid client owner steps reads (step client owner steps x .issue) := by
  rw [step]
  cases hget : steps[x.next]? with
  | none => exact ⟨reads, h⟩
  | some approval =>
    dsimp only
    have hlt : x.next < steps.length := (List.getElem?_eq_some_iff.mp hget).1
    have hindices : ((reads.map FinishedRead.index ++ x.pending.map ApprovalRead.index) ++ [x.next]).Perm
        (List.range (x.next + 1)) := by
      rw [List.range_succ]
      exact h.indices.append_right [x.next]
    cases hdata : client.approvalData owner approval with
    | error error =>
      have hread : Asked client owner steps ⟨x.next, approval, none, .error error⟩ := ⟨hget, by rw [hdata]; exact ⟨rfl, rfl⟩⟩
      refine ⟨_, h.after_completion hread (List.Subset.refl _) hlt (List.Perm.trans ?_ hindices)⟩
      rw [List.map_append, List.append_assoc, List.append_assoc]
      exact List.perm_append_comm.append_left _
    | ok data =>
      refine ⟨reads, h.asked, ?_, hlt, ?_, h.state, h.waiting, h.handled⟩
      · intro read hread wire
        rcases List.mem_append.mp hread with hread | hread
        · exact h.out read hread wire
        · rw [List.mem_singleton.mp hread]
          exact ⟨hget, by rw [hdata]⟩
      · rw [List.map_append, ← List.append_assoc]
        exact hindices

theorem Valid.answer (h : Valid client owner steps reads x) (index : ℕ) (wire : Result Bytes) :
    ∃ reads, Valid client owner steps reads (step client owner steps x (.answer index wire)) := by
  rw [step]
  cases hfind : x.pending.find? (fun read => read.index = index) with
  | none => exact ⟨reads, h⟩
  | some read =>
    obtain ⟨hindex, before, after, hpending, hbefore⟩ := List.find?_eq_some_iff_append.mp hfind
    have herase : x.pending.eraseP (fun read => read.index = index) = before ++ after := by
      rw [hpending, List.eraseP_append_right _ (by simpa using hbefore)]
      exact congrArg (before ++ ·) (List.eraseP_cons_of_pos (p := fun read : ApprovalRead => decide (read.index = index)) hindex)
    have hmem : read ∈ x.pending := by simp [hpending]
    refine ⟨reads ++ [⟨read.index, read.step, some read.request, wire⟩],
      h.after_completion (h.out read hmem wire) List.eraseP_subset h.next ?_⟩
    refine List.Perm.trans ?_ h.indices
    rw [herase, hpending, List.map_append, List.append_assoc, List.map_append, List.map_append]
    change (_ ++ read.index :: (before.map ApprovalRead.index ++ after.map ApprovalRead.index)).Perm _
    exact List.perm_middle.symm.append_left _

theorem run_valid (client : ChainClient) (owner : EvmAddress) (h : steps ≠ []) (inputs : List CheckInput) :
    ∃ reads, Valid client owner steps reads (run client owner steps inputs) := by
  refine Runs.run_invariant (step client owner steps) (Q := fun _ _ => True)
    (I := fun x => ∃ reads, Valid client owner steps reads x) ?_ ⟨[], start_valid h⟩ (Runs.along_true _ _ _)
  rintro x input ⟨reads, hvalid⟩ -
  cases input with
  | issue => exact hvalid.issue
  | answer index wire => exact hvalid.answer index wire

theorem run_nil (inputs : List CheckInput) : run client owner [] inputs = start [] := by
  induction inputs with
  | nil => rfl
  | cons input inputs ih =>
    cases input with
    | issue => exact ih
    | answer index wire => exact ih

theorem Valid.finished_iff (h : Valid client owner steps reads x) : x.Finished steps ↔ reads.length = steps.length := by
  have hlength := h.indices.length_eq
  rw [List.length_append, List.length_map, List.length_map, List.length_range] at hlength
  have hnext := h.next
  rw [Finished, ← List.length_eq_zero_iff]
  omega

theorem approvalCheck_ok {step : ApprovalStep} {value : Bytes} {check : ApprovalCheck}
    (h : ChainClient.approvalCheck step value = .ok check) :
    check.step = step ∧ (step.kind = .erc20Allowance →
      ∃ allowance, check.allowance = some allowance ∧ (check.satisfied = true ↔ 2 ^ 255 - 1 ≤ allowance.toNat)) := by
  unfold ChainClient.approvalCheck at h
  cases hkind : step.kind with
  | erc20Allowance =>
    rw [hkind] at h
    obtain ⟨allowance, -, rfl⟩ := Result.ok_of_map h
    exact ⟨rfl, fun _ => ⟨allowance, rfl, decide_eq_true_iff⟩⟩
  | erc1155Operator =>
    rw [hkind] at h
    obtain ⟨approved, -, rfl⟩ := Result.ok_of_map h
    exact ⟨rfl, fun hk => (nomatch hk)⟩

/-- What a finished read hands over is what the program of its check returns when the call answers as it did. -/
theorem Asked.yields {read : FinishedRead} (h : Asked client owner steps read) (context : RequestContext) :
    (read.request = none → (client.checkApproval owner read.step context).Yields [] read.result) ∧
      ∀ request events, read.request = some request → (client.call request .latest context).Yields events read.wire →
        (client.checkApproval owner read.step context).Yields events read.result := by
  have hasked := h.2
  rw [ChainClient.checkApproval, FinishedRead.result]
  cases hdata : client.approvalData owner read.step with
  | error error =>
    rw [hdata] at hasked
    rw [hasked.1, hasked.2]
    exact ⟨fun _ => ⟨rfl, rfl⟩, fun request events hnone => (nomatch hnone)⟩
  | ok data =>
    rw [hdata] at hasked
    dsimp only at hasked
    rw [hasked]
    refine ⟨fun hnone => (nomatch hnone), fun request events hrequest hcall => ?_⟩
    cases hrequest
    refine Program.yields_bind.mpr ⟨events, read.wire, [], (List.append_nil _).symm, hcall, ?_⟩
    cases read.wire with
    | error error => exact ⟨rfl, rfl⟩
    | ok value => exact ⟨rfl, rfl⟩

theorem approval_checks_joined (client : ChainClient) (owner : EvmAddress) (steps : List ApprovalStep)
    (inputs : List CheckInput) :
    (¬(run client owner steps inputs).Finished steps → ∀ final, .handled final ∉ (run client owner steps inputs).log) ∧
      ((run client owner steps inputs).Finished steps →
        ∃ (reads : List FinishedRead) (final : Result (List ApprovalCheck)),
        (run client owner steps inputs).log = reads.map .read ++ [.handled (some final)] ∧
        (reads.map FinishedRead.index).Perm (List.range steps.length) ∧
        (∀ read ∈ reads, Asked client owner steps read) ∧
        ((∃ error, final = .error error) ↔ ∃ read ∈ reads, ∃ error, read.result = .error error) ∧
        ∀ checks, final = .ok checks → checks.length = steps.length ∧
          ∀ i step, steps[i]? = some step → ∃ check, checks[i]? = some check ∧
            (∃ read ∈ reads, read.index = i ∧ read.result = .ok check) ∧ check.step = step ∧
            (step.kind = .erc20Allowance →
              ∃ allowance, check.allowance = some allowance ∧ (check.satisfied = true ↔ 2 ^ 255 - 1 ≤ allowance.toNat))) := by
  by_cases hsteps : steps = []
  · subst hsteps
    rw [run_nil]
    refine ⟨fun h => absurd ⟨rfl, rfl⟩ h, fun _ => ⟨[], .ok [], rfl, List.Perm.refl _, by simp, by simp, ?_⟩⟩
    rintro checks hc
    cases hc
    exact ⟨rfl, fun i step hi => absurd hi (by simp)⟩
  obtain ⟨reads, h⟩ := run_valid client owner hsteps inputs
  have hle : reads.length ≤ steps.length := by
    have := h.state.remaining
    rw [completions, List.length_map] at this
    omega
  rw [h.finished_iff]
  refine ⟨fun hless final => ?_, fun hall => ?_⟩
  · rw [h.waiting (by omega)]
    simp
  · obtain ⟨final, hlog, hjoined⟩ := h.handled hall
    have hperm := h.indices
    rw [(h.finished_iff.mpr hall).1, (h.finished_iff.mpr hall).2, List.map_nil, List.append_nil] at hperm
    refine ⟨reads, final, hlog, hperm, h.asked, ?_, fun checks hchecks => ?_⟩
    · rw [hjoined.error_iff]
      simp [completions]
    · obtain ⟨hlength, hvalues⟩ := hjoined.values checks hchecks
      rw [completions, List.length_map, hall] at hlength
      refine ⟨hlength, fun i step hstep => ?_⟩
      have hi : i < checks.length := by
        rw [hlength]
        exact (List.getElem?_eq_some_iff.mp hstep).1
      have hget := List.getElem?_eq_getElem hi
      obtain ⟨read, hread, hcompletion⟩ := List.mem_map.mp ((hvalues i _).mp hget)
      obtain ⟨hindex, hresult⟩ := Prod.mk.inj hcompletion
      obtain ⟨value, -, hcheck⟩ := Result.bind_eq_ok.mp hresult
      have hsame : read.step = step := by
        have hasked := (h.asked read hread).1
        rw [hindex, hstep] at hasked
        exact (Option.some.inj hasked).symm
      rw [hsame] at hcheck
      exact ⟨checks[i], hget, ⟨read, hread, hindex, hresult⟩, approvalCheck_ok hcheck⟩

def checkedStep (kind : ApprovalKind) : ApprovalStep :=
  ⟨ascii "step", kind, .filled 1, .filled 2, [], []⟩

def checkedSteps : List ApprovalStep := [checkedStep .erc20Allowance, checkedStep .erc1155Operator]

def checkedOwner : EvmAddress := .filled 3

def crossed : List CheckInput := [.issue, .issue, .answer 1 (.ok (ascii "0x")), .answer 0 (.ok (ascii "0x"))]

theorem crossed_checks_joined :
    ∃ (reads : List FinishedRead) (final : Result (List ApprovalCheck)),
      (run ChainClient.testnetClient checkedOwner checkedSteps crossed).log = reads.map .read ++ [.handled (some final)] ∧
        (reads.map FinishedRead.index).Perm (List.range 2) := by
  have hfinished : (run ChainClient.testnetClient checkedOwner checkedSteps crossed).Finished checkedSteps := ⟨by rfl, by rfl⟩
  obtain ⟨reads, final, hlog, hperm, -⟩ :=
    (approval_checks_joined ChainClient.testnetClient checkedOwner checkedSteps crossed).2 hfinished
  exact ⟨reads, final, hlog, hperm⟩

example : 57896044618658097711785492504343953926634992332820282019728792003956564819967 = 2 ^ 255 - 1 := by norm_num

end Checking

end PredictFun.Chain
