import PredictFun.Base.Runs
import PredictFun.Lifecycle.Command

namespace PredictFun.Lifecycle

open Base

def foldCase (c : Byte) : Byte := if 0x41 ≤ c.toNat ∧ c.toNat ≤ 0x46 then c + 0x20 else c

def SameHash (a b : Bytes) : Prop := a.map foldCase = b.map foldCase

instance (a b : Bytes) : Decidable (SameHash a b) := inferInstanceAs (Decidable (_ = _))

theorem isHexDigit_foldCase : ∀ c : Byte, isHexDigit (foldCase c) = isHexDigit c := by decide

theorem foldCase_mark : ∀ c : Byte, (foldCase c = byte '0' ↔ c = byte '0') ∧ (foldCase c = byte 'x' ↔ c = byte 'x') := by
  decide

theorem map_foldCase_mark (a : Bytes) : a.map foldCase = ascii "0x" ↔ a = ascii "0x" := by
  change a.map foldCase = [byte '0', byte 'x'] ↔ a = [byte '0', byte 'x']
  match a with
  | [] | [_] | _ :: _ :: _ :: _ => simp
  | [c, d] => simp [(foldCase_mark c).1, (foldCase_mark d).2]

theorem validHash_foldCase (a : Bytes) : validHash (a.map foldCase) = validHash a := by
  unfold validHash
  rw [List.length_map, ← List.map_take, ← List.map_drop, List.all_map]
  have hall : isHexDigit ∘ foldCase = isHexDigit := funext isHexDigit_foldCase
  rw [hall, decide_eq_decide.mpr (map_foldCase_mark (a.take 2))]

theorem SameHash.valid {a b : Bytes} (h : SameHash a b) : validHash a = validHash b := by
  rw [← validHash_foldCase a, ← validHash_foldCase b, h]

section

variable (R : Bytes → Bytes → Prop)

def OrderAlike (order order' : TrackedOrder) : Prop :=
  R order.orderHash order'.orderHash ∧ order' = { order with orderHash := order'.orderHash }

def ReceiptAlike (receipt receipt' : CreateOrderReceipt) : Prop :=
  R receipt.orderHash receipt'.orderHash ∧ receipt' = { receipt with orderHash := receipt'.orderHash }

def RecordAlike (order order' : OrderRecord) : Prop :=
  R order.order.hash order'.order.hash ∧ order' = { order with order := { order.order with hash := order'.order.hash } }

def EventAlike (event event' : WalletEvent) : Prop :=
  R event.orderHash event'.orderHash ∧ event' = { event with orderHash := event'.orderHash }

structure OutcomeAlike (outcome outcome' : MutationOutcome CreateOrderReceipt) : Prop where
  disposition : outcome'.disposition = outcome.disposition
  ambiguity : outcome'.ambiguity = outcome.ambiguity
  receipt : Option.Rel (ReceiptAlike R) outcome.receipt outcome'.receipt

inductive Command.Alike : Command → Command → Prop
  | beginSubmission {hash hash'} (amount) : R hash hash' →
      Alike (.beginSubmission hash amount) (.beginSubmission hash' amount)
  | applyCreateOutcome {hash hash' outcome outcome'} : R hash hash' → OutcomeAlike R outcome outcome' →
      Alike (.applyCreateOutcome hash outcome) (.applyCreateOutcome hash' outcome')
  | markSubmissionRejected {hash hash'} (error) : R hash hash' →
      Alike (.markSubmissionRejected hash error) (.markSubmissionRejected hash' error)
  | applyRestOrder {order order'} : RecordAlike R order order' → Alike (.applyRestOrder order) (.applyRestOrder order')
  | applyWalletEvent {event event'} : EventAlike R event event' → Alike (.applyWalletEvent event) (.applyWalletEvent event')
  | markBookRemoved {hash hash'} : R hash hash' → Alike (.markBookRemoved hash) (.markBookRemoved hash')
  | requireReconciliation (streamGeneration) :
      Alike (.requireReconciliation streamGeneration) (.requireReconciliation streamGeneration)
  | reconcile {snapshot snapshot'} (streamGeneration) : List.Forall₂ (RecordAlike R) snapshot snapshot' →
      Alike (.reconcile streamGeneration snapshot) (.reconcile streamGeneration snapshot')

def OneToOne : Prop := ∀ a b c d, R a b → R c d → (a = c ↔ b = d)

def OrderTracker.Alike (t t' : OrderTracker) : Prop :=
  ∀ hash hash', R hash hash' → Option.Rel (OrderAlike R) (t.find hash) (t'.find hash')

end

variable {R : Bytes → Bytes → Prop} {order order' : TrackedOrder}

theorem OrderAlike.map {f g : TrackedOrder → TrackedOrder} (h : OrderAlike R order order')
    (hf : (f order).orderHash = order.orderHash)
    (hg : ∀ hash, g { order with orderHash := hash } = { f order with orderHash := hash }) :
    OrderAlike R (f order) (g order') := by
  obtain ⟨hr, he⟩ := h
  have hgo : g order' = { f order with orderHash := order'.orderHash } := by
    rw [he]
    exact hg _
  rw [hgo]
  exact ⟨hf ▸ hr, rfl⟩

theorem restOrder_alike {record record' : OrderRecord} (hr : RecordAlike R record record') (h : OrderAlike R order order') :
    OrderAlike R (restOrder record order) (restOrder record' order') := by
  have hsame : ∀ o, restOrder record' o = restOrder record o := by
    intro o
    rw [hr.2]
    rfl
  rw [hsame]
  refine h.map (restOrder_hash _ _) (fun hash => ?_)
  unfold restOrder deriveFillState
  cases record.status.value <;> dsimp only
  split_ifs <;> rfl

theorem walletEvent_alike {event event' : WalletEvent} (he : EventAlike R event event') (h : OrderAlike R order order') :
    OrderAlike R (walletEvent event order) (walletEvent event' order') := by
  have hsame : ∀ o, walletEvent event' o = walletEvent event o := by
    intro o
    rw [he.2]
    rfl
  rw [hsame]
  refine h.map (walletEvent_hash _ _) (fun hash => ?_)
  unfold walletEvent deriveFillState
  cases event.type.value <;> dsimp only
  all_goals
    split_ifs <;> rfl

theorem quarantined_alike (streamGeneration : BitVec 64) (h : OrderAlike R order order') :
    OrderAlike R (quarantined streamGeneration order) (quarantined streamGeneration order') := by
  refine h.map (OrderTracker.quarantined_hash _ _) (fun hash => ?_)
  unfold quarantined
  by_cases ht : order.terminal = true
  · rw [if_pos ht, if_pos (show ({ order with orderHash := hash } : TrackedOrder).terminal = true from ht)]
  · rw [if_neg ht, if_neg (show ¬({ order with orderHash := hash } : TrackedOrder).terminal = true from ht)]

/-- Both succeed with related values, or both are refused for one reason; an error may name the order in its own spelling. -/
inductive AnswerAlike {α : Type} (S : α → α → Prop) : Result α → Result α → Prop
  | ok {value value' : α} : S value value' → AnswerAlike S (.ok value) (.ok value')
  | error {error error' : Error} : error' = { error with field := error'.field } → AnswerAlike S (.error error) (.error error')

theorem AnswerAlike.same {α : Type} {S : α → α → Prop} (error : Error) : AnswerAlike S (.error error) (.error error) :=
  .error rfl

theorem AnswerAlike.map {α β : Type} {S : α → α → Prop} {T : β → β → Prop} {answer answer' : Result α} {f f' : α → β}
    (h : AnswerAlike S answer answer') (hf : ∀ a a', S a a' → T (f a) (f' a')) :
    AnswerAlike T (answer.map f) (answer'.map f') := by
  cases h with
  | ok hs => exact .ok (hf _ _ hs)
  | error he => exact .error he

theorem createOutcome_alike {outcome outcome' : MutationOutcome CreateOrderReceipt} (hone : OneToOne R)
    (ho : OutcomeAlike R outcome outcome') (h : OrderAlike R order order') :
    AnswerAlike (OrderAlike R) (createOutcome outcome order) (createOutcome outcome' order') := by
  obtain ⟨disposition, receipt, ambiguity, key⟩ := outcome
  obtain ⟨disposition', receipt', ambiguity', key'⟩ := outcome'
  obtain ⟨rfl, rfl, hreceipt⟩ := ho
  unfold createOutcome
  by_cases hd : disposition' = .ambiguous
  · rw [if_pos hd, if_pos hd]
    exact .ok (h.map (f := fun o => { o with state := _, reconciliationRequired := _, reason := _ })
      (g := fun o => { o with state := _, reconciliationRequired := _, reason := _ }) rfl (fun _ => rfl))
  · rw [if_neg hd, if_neg hd]
    cases hreceipt with
    | none => exact .error rfl
    | @some receipt receipt' hr =>
      have hmatch := hone _ _ _ _ hr.1 h.1
      dsimp only
      by_cases hm : receipt.orderHash = order.orderHash
      · rw [if_neg (not_not_intro hm), if_neg (not_not_intro (hmatch.mp hm)), hr.2]
        exact .ok (h.map (f := fun o => { o with orderId := _, state := _, reason := _ })
          (g := fun o => { o with orderId := _, state := _, reason := _ }) rfl (fun _ => rfl))
      · rw [if_pos hm, if_pos (fun he => hm (hmatch.mpr he))]
        exact .error rfl

theorem recordsOf_alike {snapshot snapshot' : List OrderRecord} {hash hash' : Bytes} (hone : OneToOne R)
    (hh : R hash hash') (h : List.Forall₂ (RecordAlike R) snapshot snapshot') :
    List.Forall₂ (RecordAlike R) (recordsOf hash snapshot) (recordsOf hash' snapshot') := by
  induction h with
  | nil => exact .nil
  | @cons record record' rest rest' hr hrest ih =>
    have hmatch := hone _ _ _ _ hr.1 hh
    unfold recordsOf at ih ⊢
    by_cases hm : record.order.hash = hash
    · rw [List.filter_cons_of_pos (by simpa using hm), List.filter_cons_of_pos (by simpa using hmatch.mp hm)]
      exact .cons hr ih
    · rw [List.filter_cons_of_neg (by simpa using hm), List.filter_cons_of_neg (by simpa using fun he => hm (hmatch.mpr he))]
      exact ih

theorem getLast_alike {α : Type} {S : α → α → Prop} {l l' : List α} (h : List.Forall₂ S l l') :
    Option.Rel S l.getLast? l'.getLast? := by
  induction h with
  | nil => exact .none
  | @cons a a' rest rest' ha hrest ih =>
    cases hrest with
    | nil => exact .some ha
    | cons hb hrest =>
      rw [List.getLast?_cons_cons, List.getLast?_cons_cons]
      exact ih

theorem reconciled_alike {records records' : List OrderRecord} (streamGeneration : BitVec 64)
    (hr : List.Forall₂ (RecordAlike R) records records') (h : OrderAlike R order order') :
    OrderAlike R (reconciled streamGeneration records order) (reconciled streamGeneration records' order') := by
  have hlast := getLast_alike hr
  unfold reconciled
  generalize records.getLast? = last at hlast
  generalize records'.getLast? = last' at hlast
  cases hlast with
  | none => exact quarantined_alike streamGeneration h
  | some hs =>
    exact (restOrder_alike hs h).map (f := fun o => { o with streamGeneration := _ })
      (g := fun o => { o with streamGeneration := _ }) rfl (fun _ => rfl)

theorem submissionRejected_alike (error : Error) (h : OrderAlike R order order') :
    AnswerAlike (Option.Rel (OrderAlike R)) (submissionRejected error order) (submissionRejected error order') := by
  have hstate : order'.state = order.state := by rw [h.2]
  unfold submissionRejected
  rw [hstate]
  by_cases hr : order.state = .rejected
  · rw [if_pos hr, if_pos hr]
    exact .ok .none
  rw [if_neg hr, if_neg hr]
  by_cases hp : order.state = .submissionPending
  · rw [if_pos hp, if_pos hp]
    exact .ok (.some (h.map (f := fun o => { o with state := _, reconciliationRequired := _, reason := _ })
      (g := fun o => { o with state := _, reconciliationRequired := _, reason := _ }) rfl (fun _ => rfl)))
  · rw [if_neg hp, if_neg hp]
    exact .same _

namespace OrderTracker

variable {t t' : OrderTracker} {hash hash' : Bytes}

theorem store_alike (hone : OneToOne R) (h : t.Alike R t') (ho : OrderAlike R order order') :
    (t.store order).Alike R (t'.store order') := by
  intro a b hab
  have hmatch := hone _ _ _ _ hab ho.1
  rw [find_store, find_store]
  by_cases hm : a = order.orderHash
  · rw [if_pos hm, if_pos (hmatch.mp hm)]
    exact .some ho
  · rw [if_neg hm, if_neg (fun he => hm (hmatch.mpr he))]
    exact h a b hab

theorem beginSubmission_alike (hone : OneToOne R) (hvalid : validHash hash = validHash hash') (h : t.Alike R t')
    (hh : R hash hash') (amount : ExactDecimal) :
    AnswerAlike (fun x x' => x.2.Alike R x'.2) (t.beginSubmission hash amount) (t'.beginSubmission hash' amount) := by
  have hfind : (t.find hash).isSome = (t'.find hash').isSome := by
    have hrel := h hash hash' hh
    generalize t.find hash = found at hrel
    generalize t'.find hash' = found' at hrel
    cases hrel <;> rfl
  unfold beginSubmission
  rw [hvalid, hfind]
  split_ifs
  · exact .same _
  · exact .same _
  · exact .same _
  · exact .ok (store_alike hone h ⟨hh, rfl⟩)

theorem alter_alike {change change' : TrackedOrder → Result TrackedOrder} (hone : OneToOne R) (h : t.Alike R t')
    (hh : R hash hash')
    (hchange : ∀ o o', OrderAlike R o o' → AnswerAlike (OrderAlike R) (change o) (change' o')) :
    AnswerAlike (Alike R) (t.alter hash change) (t'.alter hash' change') := by
  have hfind := h hash hash' hh
  unfold alter
  generalize t.find hash = found at hfind
  generalize t'.find hash' = found' at hfind
  cases hfind with
  | none => exact .error rfl
  | some ho => exact (hchange _ _ ho).map (fun _ _ hs => store_alike hone h hs)

theorem markSubmissionRejected_alike (hone : OneToOne R) (h : t.Alike R t') (hh : R hash hash') (error : Error) :
    AnswerAlike (fun x x' => x.2.Alike R x'.2) (t.markSubmissionRejected hash error)
      (t'.markSubmissionRejected hash' error) := by
  have hfind := h hash hash' hh
  unfold markSubmissionRejected
  generalize t.find hash = found at hfind
  generalize t'.find hash' = found' at hfind
  cases hfind with
  | none => exact .error rfl
  | some ho =>
    refine (submissionRejected_alike error ho).map (fun changed changed' hc => ?_)
    cases hc with
    | none => exact h
    | some hs => exact store_alike hone h hs

theorem reconcile_alike {snapshot snapshot' : List OrderRecord} (hone : OneToOne R) (h : t.Alike R t')
    (streamGeneration : BitVec 64) (hs : List.Forall₂ (RecordAlike R) snapshot snapshot') :
    (t.reconcile streamGeneration snapshot).2.Alike R (t'.reconcile streamGeneration snapshot').2 := by
  intro a b hab
  have hfind := h a b hab
  rw [find_reconcile, find_reconcile]
  generalize t.find a = found at hfind
  generalize t'.find b = found' at hfind
  cases hfind with
  | none => exact .none
  | some ho => exact .some (reconciled_alike streamGeneration (recordsOf_alike hone hab hs) ho)

theorem requireReconciliation_alike (h : t.Alike R t') (streamGeneration : BitVec 64) :
    (t.requireReconciliation streamGeneration).Alike R (t'.requireReconciliation streamGeneration) := by
  intro a b hab
  have hfind := h a b hab
  rw [find_requireReconciliation, find_requireReconciliation]
  generalize t.find a = found at hfind
  generalize t'.find b = found' at hfind
  cases hfind with
  | none => exact .none
  | some ho => exact .some (quarantined_alike streamGeneration ho)

theorem perform_alike {command command' : Command} (hone : OneToOne R)
    (hvalid : ∀ a b, R a b → validHash a = validHash b) (h : t.Alike R t') (hc : command.Alike R command') :
    AnswerAlike (Alike R) (t.perform command) (t'.perform command') := by
  cases hc with
  | beginSubmission amount hr =>
    exact (beginSubmission_alike hone (hvalid _ _ hr) h hr amount).map (fun _ _ hs => hs)
  | applyCreateOutcome hr ho => exact alter_alike hone h hr (fun _ _ hs => createOutcome_alike hone ho hs)
  | markSubmissionRejected error hr => exact (markSubmissionRejected_alike hone h hr error).map (fun _ _ hs => hs)
  | applyRestOrder hr => exact alter_alike hone h hr.1 (fun _ _ hs => .ok (restOrder_alike hr hs))
  | applyWalletEvent he => exact alter_alike hone h he.1 (fun _ _ hs => .ok (walletEvent_alike he hs))
  | markBookRemoved hr => exact alter_alike hone h hr (fun _ _ hs => .ok (hs.map rfl (fun _ => rfl)))
  | requireReconciliation streamGeneration => exact .ok (requireReconciliation_alike h streamGeneration)
  | reconcile streamGeneration hs => exact .ok (reconcile_alike hone h streamGeneration hs)

theorem after_alike {command command' : Command} (h : t.Alike R t')
    (ha : AnswerAlike (Alike R) (t.perform command) (t'.perform command')) :
    (t.after command).Alike R (t'.after command') := by
  unfold after
  generalize t.perform command = answer at ha
  generalize t'.perform command' = answer' at ha
  cases ha with
  | ok hs => exact hs
  | error he => exact h

def answers (t : OrderTracker) : List Command → List (Result Unit)
  | [] => []
  | command :: commands => (t.perform command).map (fun _ => ()) :: (t.after command).answers commands

theorem run_alike {commands commands' : List Command} (hone : OneToOne R)
    (hvalid : ∀ a b, R a b → validHash a = validHash b) (hc : List.Forall₂ (Command.Alike R) commands commands')
    (h : t.Alike R t') :
    List.Forall₂ (AnswerAlike (fun _ _ => True)) (t.answers commands) (t'.answers commands') ∧
      (Runs.run after t commands).Alike R (Runs.run after t' commands') := by
  induction hc generalizing t t' with
  | nil => exact ⟨.nil, h⟩
  | cons hcommand hrest ih =>
    have hperform := perform_alike hone hvalid h hcommand
    obtain ⟨hanswers, hrun⟩ := ih (after_alike h hperform)
    exact ⟨.cons (hperform.map (fun _ _ _ => trivial)) hanswers, hrun⟩

end OrderTracker

def Command.hashes : Command → List Bytes
  | .beginSubmission hash _ => [hash]
  | .applyCreateOutcome hash outcome => hash :: (outcome.receipt.map CreateOrderReceipt.orderHash).toList
  | .markSubmissionRejected hash _ => [hash]
  | .applyRestOrder order => [order.order.hash]
  | .applyWalletEvent event => [event.orderHash]
  | .markBookRemoved hash => [hash]
  | .requireReconciliation _ => []
  | .reconcile _ snapshot => snapshot.map (fun order => order.order.hash)

def Consistent (commands : List Command) : Prop :=
  ∀ a ∈ commands.flatMap Command.hashes, ∀ b ∈ commands.flatMap Command.hashes, SameHash a b → a = b

theorem records_mono {S : Bytes → Bytes → Prop} {snapshot snapshot' : List OrderRecord}
    (h : List.Forall₂ (RecordAlike S) snapshot snapshot')
    (hmono : ∀ a ∈ snapshot.map (fun order => order.order.hash), ∀ b ∈ snapshot'.map (fun order => order.order.hash),
      S a b → R a b) : List.Forall₂ (RecordAlike R) snapshot snapshot' := by
  induction h with
  | nil => exact .nil
  | cons hr hrest ih =>
    refine .cons ⟨hmono _ List.mem_cons_self _ List.mem_cons_self hr.1, hr.2⟩ (ih (fun a ha b hb => ?_))
    exact hmono a (List.mem_cons_of_mem _ ha) b (List.mem_cons_of_mem _ hb)

theorem Command.Alike.mono {S : Bytes → Bytes → Prop} {command command' : Command} (h : command.Alike S command')
    (hmono : ∀ a ∈ command.hashes, ∀ b ∈ command'.hashes, S a b → R a b) : command.Alike R command' := by
  cases h with
  | beginSubmission amount hs => exact .beginSubmission amount (hmono _ List.mem_cons_self _ List.mem_cons_self hs)
  | @applyCreateOutcome hash hash' outcome outcome' hs ho =>
    refine .applyCreateOutcome (hmono _ List.mem_cons_self _ List.mem_cons_self hs) ⟨ho.disposition, ho.ambiguity, ?_⟩
    obtain ⟨disposition, receipt, ambiguity, key⟩ := outcome
    obtain ⟨disposition', receipt', ambiguity', key'⟩ := outcome'
    cases ho.receipt with
    | none => exact .none
    | some hr =>
      exact .some ⟨hmono _ (List.mem_cons_of_mem _ List.mem_cons_self) _ (List.mem_cons_of_mem _ List.mem_cons_self) hr.1,
        hr.2⟩
  | markSubmissionRejected error hs =>
    exact .markSubmissionRejected error (hmono _ List.mem_cons_self _ List.mem_cons_self hs)
  | applyRestOrder hs => exact .applyRestOrder ⟨hmono _ List.mem_cons_self _ List.mem_cons_self hs.1, hs.2⟩
  | applyWalletEvent hs => exact .applyWalletEvent ⟨hmono _ List.mem_cons_self _ List.mem_cons_self hs.1, hs.2⟩
  | markBookRemoved hs => exact .markBookRemoved (hmono _ List.mem_cons_self _ List.mem_cons_self hs)
  | requireReconciliation streamGeneration => exact .requireReconciliation streamGeneration
  | reconcile streamGeneration hs => exact .reconcile streamGeneration (records_mono hs hmono)

def Corresponds (commands commands' : List Command) (a b : Bytes) : Prop :=
  a ∈ commands.flatMap Command.hashes ∧ b ∈ commands'.flatMap Command.hashes ∧ SameHash a b

theorem corresponds_oneToOne {commands commands' : List Command} (h : Consistent commands) (h' : Consistent commands') :
    OneToOne (Corresponds commands commands') := by
  rintro a b c d ⟨ha, hb, hab⟩ ⟨hc, hd, hcd⟩
  constructor
  · rintro rfl
    exact h' b hb d hd (hab.symm.trans hcd)
  · rintro rfl
    exact h a ha c hc (hab.trans hcd.symm)

theorem forall₂_corresponds {commands commands' : List Command}
    (h : List.Forall₂ (Command.Alike SameHash) commands commands') :
    List.Forall₂ (Command.Alike (Corresponds commands commands')) commands commands' := by
  rw [List.forall₂_iff_get] at h ⊢
  refine ⟨h.1, fun i hi hi' => (h.2 i hi hi').mono (fun a ha b hb hab => ⟨?_, ?_, hab⟩)⟩
  · exact List.mem_flatMap.mpr ⟨_, List.get_mem _ _, ha⟩
  · exact List.mem_flatMap.mpr ⟨_, List.get_mem _ _, hb⟩

/-- Two sequences of operations that differ in the spelling of the order hashes, each with one spelling of each hash, are
answered alike and lead to the same orders. -/
theorem OrderTracker.respelled_runs_agree (commands commands' : List Command)
    (hr : List.Forall₂ (Command.Alike SameHash) commands commands') (hc : Consistent commands)
    (hc' : Consistent commands') :
    List.Forall₂ (AnswerAlike (fun _ _ => True)) (empty.answers commands) (empty.answers commands') ∧
      ∀ n, ∀ a ∈ commands.flatMap Command.hashes, ∀ b ∈ commands'.flatMap Command.hashes, SameHash a b →
        Option.Rel (OrderAlike SameHash) ((Runs.run after empty (commands.take n)).find a)
          ((Runs.run after empty (commands'.take n)).find b) := by
  have hone := corresponds_oneToOne hc hc'
  have hvalid : ∀ a b, Corresponds commands commands' a b → validHash a = validHash b := fun a b h => h.2.2.valid
  have halike := forall₂_corresponds hr
  have hempty : empty.Alike (Corresponds commands commands') empty := fun _ _ _ => .none
  refine ⟨(run_alike hone hvalid halike hempty).1, fun n a ha b hb hab => ?_⟩
  have hrun := (run_alike hone hvalid (List.forall₂_take n halike) hempty).2 a b ⟨ha, hb, hab⟩
  generalize (Runs.run after empty (commands.take n)).find a = found at hrun
  generalize (Runs.run after empty (commands'.take n)).find b = found' at hrun
  cases hrun with
  | none => exact .none
  | some ho => exact .some ⟨ho.1.2.2, ho.2⟩

def upperHash : Bytes := ascii "0x" ++ List.replicate 64 (byte 'A')

def twice (first second : Bytes) : List Command := [.beginSubmission first tenShares, .beginSubmission second tenShares]

/-- The second submission of an order is refused, but not when it is spelled in another way. -/
theorem respelled_duplicate_accepted :
    List.Forall₂ (Command.Alike SameHash) (twice sampleHash sampleHash) (twice sampleHash upperHash) ∧
    OrderTracker.empty.answers (twice sampleHash sampleHash) =
      [.ok (), fail .invalidArgument "order hash is already tracked" "hash"] ∧
    OrderTracker.empty.answers (twice sampleHash upperHash) = [.ok (), .ok ()] := by
  refine ⟨.cons (.beginSubmission tenShares rfl) (.cons (.beginSubmission tenShares ?_) .nil), ?_, ?_⟩
  · decide
  · decide
  · decide

theorem upper_duplicate_refused :
    List.Forall₂ (AnswerAlike (fun _ _ => True)) (OrderTracker.empty.answers (twice sampleHash sampleHash))
      (OrderTracker.empty.answers (twice upperHash upperHash)) := by
  have hsame : SameHash sampleHash upperHash := by decide
  have hone (hash : Bytes) : Consistent (twice hash hash) := by
    intro a ha b hb _
    simp only [twice, List.flatMap_cons, List.flatMap_nil, Command.hashes, List.append_nil, List.cons_append,
      List.nil_append, List.mem_cons, List.not_mem_nil, or_false, or_self] at ha hb
    rw [ha, hb]
  exact (OrderTracker.respelled_runs_agree _ _
    (.cons (.beginSubmission tenShares hsame) (.cons (.beginSubmission tenShares hsame) .nil)) (hone _) (hone _)).1

end PredictFun.Lifecycle
