import PredictFun.Codec.PrivateWebsocket
import PredictFun.Lifecycle.Agreement

namespace PredictFun

open Base Storage Lifecycle

def OrderRecord.Sound (order : OrderRecord) : Prop := 0 < order.amount.value ∧ 0 ≤ order.amountFilled.value

def WalletEvent.Sound (event : WalletEvent) : Prop :=
  0 < event.details.quantity.value ∧ 0 ≤ event.details.quantityFilled.value

namespace Lifecycle

@[simp] theorem deriveFillState_amount (tracked : TrackedOrder) : (deriveFillState tracked).amount = tracked.amount := by
  unfold deriveFillState
  split_ifs <;> rfl

@[simp] theorem deriveFillState_amountFilled (tracked : TrackedOrder) :
    (deriveFillState tracked).amountFilled = tracked.amountFilled := by
  unfold deriveFillState
  split_ifs <;> rfl

variable {tracked : TrackedOrder}

theorem restOrder_restorable {order : OrderRecord} (h : Restorable tracked) :
    Restorable (restOrder order tracked) ↔ order.Sound := by
  have hamount : (restOrder order tracked).amount = order.amount := by
    unfold restOrder
    cases order.status.value <;> simp
  have hfilled : (restOrder order tracked).amountFilled = order.amountFilled := by
    unfold restOrder
    cases order.status.value <;> simp
  rw [Restorable, restOrder_hash, hamount, hfilled]
  exact and_iff_right h.1

theorem walletEvent_restorable {event : WalletEvent} (h : Restorable tracked) :
    Restorable (walletEvent event tracked) ↔ event.Sound := by
  have hamount : (walletEvent event tracked).amount = event.details.quantity := by
    unfold walletEvent
    cases event.type.value <;> simp
  have hfilled : (walletEvent event tracked).amountFilled = event.details.quantityFilled := by
    unfold walletEvent
    cases event.type.value <;> simp
  rw [Restorable, walletEvent_hash, hamount, hfilled]
  exact and_iff_right h.1

theorem quarantined_restorable {streamGeneration : BitVec 64} :
    Restorable (quarantined streamGeneration tracked) ↔ Restorable tracked := by
  rw [Restorable, Restorable, OrderTracker.quarantined_hash, quarantined_amount, quarantined_amountFilled]

/-- The reports that a command applies to tracked orders are sound; of several reports of one order in a snapshot the
last one counts. -/
def Command.Sound (t : OrderTracker) : Command → Prop
  | .applyRestOrder order => order.Sound
  | .applyWalletEvent event => event.Sound
  | .reconcile _ snapshot =>
    ∀ hash, (t.find hash).isSome → ∀ order, (recordsOf hash snapshot).getLast? = some order → order.Sound
  | _ => True

def OrderTracker.AllRestorable (t : OrderTracker) : Prop :=
  ∀ hash order, t.find hash = some order → Restorable order

theorem Command.update_restorable {t : OrderTracker} {command : Command} {hash : Bytes}
    (hs : command.Sound t) (hf : t.find hash = some tracked) (hr : Restorable tracked) :
    Restorable (command.update hash tracked) := by
  cases command with
  | beginSubmission target amount => exact hr
  | applyCreateOutcome target outcome =>
    unfold update createOutcome
    dsimp only
    split_ifs
    · exact hr
    · cases outcome.receipt with
      | none => exact hr
      | some receipt =>
        dsimp only
        split_ifs <;> exact hr
    · exact hr
  | markSubmissionRejected target error =>
    unfold update submissionRejected
    dsimp only
    split_ifs <;> exact hr
  | applyRestOrder order =>
    unfold update
    dsimp only
    split_ifs
    · exact (restOrder_restorable hr).mpr hs
    · exact hr
  | applyWalletEvent event =>
    unfold update
    dsimp only
    split_ifs
    · exact (walletEvent_restorable hr).mpr hs
    · exact hr
  | markBookRemoved target =>
    unfold update
    dsimp only
    split_ifs <;> exact hr
  | requireReconciliation streamGeneration => exact quarantined_restorable.mpr hr
  | reconcile streamGeneration snapshot =>
    unfold update reconciled
    dsimp only
    cases hl : (recordsOf hash snapshot).getLast? with
    | none => exact quarantined_restorable.mpr hr
    | some order => exact (restOrder_restorable hr).mpr (hs hash (by simp [hf]) order hl)

theorem zero_nonneg : 0 ≤ ExactDecimal.zero.value := by
  rw [← not_lt, ← negative_iff]
  decide

namespace OrderTracker

theorem after_restorable {t : OrderTracker} {command : Command} (hr : t.AllRestorable) (hs : command.Sound t) :
    (t.after command).AllRestorable := by
  intro hash order ho
  cases hf : t.find hash with
  | none =>
    obtain hn | ⟨amount, -, hv, ha, hn⟩ := find_after_none command hf
    · rw [hn] at ho
      cases ho
    · rw [hn] at ho
      cases ho
      exact ⟨hv, ha, zero_nonneg⟩
  | some tracked =>
    rw [find_after_some command hf] at ho
    cases ho
    exact Command.update_restorable hs hf (hr hash tracked hf)

theorem sound_of_restorable {t next : OrderTracker} {command : Command} (hr : t.AllRestorable)
    (hp : t.perform command = .ok next) (hn : next.AllRestorable) : command.Sound t := by
  have hupdate : ∀ hash tracked, t.find hash = some tracked → Restorable (command.update hash tracked) := by
    intro hash tracked hf
    apply hn hash
    rw [← after_ok hp, find_after_some command hf]
  cases command with
  | applyRestOrder order =>
    obtain ⟨tracked, -, hf, -, -⟩ := alter_ok hp
    have := hupdate _ _ hf
    simp only [Command.update, if_true] at this
    exact (restOrder_restorable (hr _ _ hf)).mp this
  | applyWalletEvent event =>
    obtain ⟨tracked, -, hf, -, -⟩ := alter_ok hp
    have := hupdate _ _ hf
    simp only [Command.update, if_true] at this
    exact (walletEvent_restorable (hr _ _ hf)).mp this
  | reconcile streamGeneration snapshot =>
    intro hash hsome order hl
    obtain ⟨tracked, hf⟩ := Option.isSome_iff_exists.mp hsome
    have := hupdate _ _ hf
    simp only [Command.update, reconciled, hl] at this
    exact (restOrder_restorable (hr _ _ hf)).mp this
  | _ => trivial

end OrderTracker

def TrackedOrder.holding (order : TrackedOrder) : ExactDecimal × ExactDecimal × OrderLifecycleState :=
  (order.amount, order.amountFilled, order.state)

namespace OrderJournal

variable {journal : OrderJournal} {f : Bytes} {t : OrderTracker}

theorem Agrees.recover_iff {values : List Frame} (hl : ∀ hash, (latestOrders (values.map Frame.order)).lookup hash = t.find hash)
    (bytes : ℕ) (torn : Bool) :
    (∃ u, recover (replayed (values.map Frame.order) bytes torn) = .ok u) ↔ t.AllRestorable := by
  rw [recover_ok_iff]
  simp only [hl]
  rfl

theorem Agrees.open_iff (hu : journal.Usable) (ha : journal.Agrees f t) :
    (∃ p w, PersistentOrderTracker.open journal ⟨some f, []⟩ = (.ok p, w)) ↔ t.AllRestorable := by
  obtain ⟨values, hh, hl⟩ := ha
  have hf : (some f).getD fileMagic = f ++ [] := (List.append_nil f).symm
  rw [← Agrees.recover_iff hl f.length (decide (([] : Bytes) ≠ []))]
  constructor
  · rintro ⟨p, w, ho⟩
    cases hr : recover (replayed (values.map Frame.order) f.length (decide (([] : Bytes) ≠ []))) with
    | ok u => exact ⟨u, rfl⟩
    | error error =>
      rw [open_unrecovered hu hf hh (Or.inl rfl) hr] at ho
      cases ho
  · rintro ⟨u, hr⟩
    exact ⟨_, _, open_recovered hu hf hh (Or.inl rfl) hr⟩

theorem Agrees.reopened {p : PersistentOrderTracker} {w : World Byte} (hu : journal.Usable) (ha : journal.Agrees f t)
    (ho : PersistentOrderTracker.open journal ⟨some f, []⟩ = (.ok p, w)) (hash : Bytes) :
    (p.tracker.find hash).map TrackedOrder.holding = (t.find hash).map TrackedOrder.holding := by
  have hr := (Agrees.open_iff hu ha).mp ⟨p, w, ho⟩
  obtain ⟨values, hh, hl⟩ := ha
  obtain ⟨u, hu'⟩ := (Agrees.recover_iff hl f.length (decide (([] : Bytes) ≠ []))).mpr hr
  rw [open_recovered hu (show (some f).getD fileMagic = f ++ [] from (List.append_nil f).symm) hh (Or.inl rfl) hu'] at ho
  cases ho
  dsimp only
  rw [recover_ok hu', hl, Option.map_map]
  congr 1
  funext order
  simp [TrackedOrder.holding]

end OrderJournal

theorem recovered_restorable {journal : OrderJournal} {file : Option Bytes} {p : PersistentOrderTracker}
    {w : World Byte} (h : PersistentOrderTracker.open journal ⟨file, []⟩ = (.ok p, w)) : p.tracker.AllRestorable := by
  obtain ⟨-, good, tail, values, -, -, -, hr, -, -⟩ := open_ok h
  intro hash order ho
  rw [recover_ok hr, Option.map_eq_some_iff] at ho
  obtain ⟨record, hl, rfl⟩ := ho
  exact quarantined_restorable.mpr ((recover_ok_iff _ _ _).mp ⟨_, hr⟩ hash record hl)

namespace Host

def Reopens (s : Host) : Prop :=
  ∀ p, s.tracker = some p → ∃ p' w, PersistentOrderTracker.open p.journal ⟨s.file, []⟩ = (.ok p', w) ∧
    ∀ hash, (p'.tracker.find hash).map TrackedOrder.holding = (p.tracker.find hash).map TrackedOrder.holding

def Succeeds (s : Host) (step : Step) : Prop :=
  match step.act with
  | .open journal => ∃ p w, PersistentOrderTracker.open journal ⟨s.file, step.faults⟩ = (.ok p, w)
  | .execute command =>
    ∃ p, s.tracker = some p ∧ ∃ p' w, p.execute command ⟨s.file, step.faults⟩ = (.ok p', w)
  | .close => True

def Sound (s : Host) (step : Step) : Prop :=
  match step.act, s.tracker with
  | .execute command, some p => command.Sound p.tracker
  | _, _ => True

variable {s : Host}

theorem sound_execute {p : PersistentOrderTracker} (hp : s.tracker = some p) (command : Command)
    (faults : List Fault) : s.Sound ⟨.execute command, faults⟩ ↔ command.Sound p.tracker := by
  rw [Sound, hp]

def AllRestorable (s : Host) : Prop := ∀ p, s.tracker = some p → p.tracker.AllRestorable

theorem Synced.reopens_iff_restorable (h : s.Synced) : s.Reopens ↔ s.AllRestorable := by
  constructor
  · intro hr p hp
    obtain ⟨-, hu, f, hf, ha⟩ := h p hp
    obtain ⟨p', w, ho, -⟩ := hr p hp
    rw [hf] at ho
    exact (ha.open_iff hu).mp ⟨p', w, ho⟩
  · intro hr p hp
    obtain ⟨-, hu, f, hf, ha⟩ := h p hp
    obtain ⟨p', w, ho⟩ := (ha.open_iff hu).mpr (hr p hp)
    rw [hf]
    exact ⟨p', w, ho, ha.reopened hu ho⟩

theorem execute_succeeds {p p' : PersistentOrderTracker} {f : Bytes} {command : Command} {w : World Byte}
    (hmax : p.journal.options.maximumRecordBytes < 2 ^ 32) (hu : p.journal.Usable) (ha : p.journal.Agrees f p.tracker)
    (hx : p.execute command ⟨some f, []⟩ = (.ok p', w)) :
    p.tracker.perform command = .ok p'.tracker ∧ (executed p (.ok p', w)).Synced := by
  obtain ⟨error, -, he⟩ | ⟨next, hplan, he⟩ | ⟨records, next, hplan, ⟨hall, he⟩ | ⟨-, error, he⟩⟩ :=
    PersistentOrderTracker.execute_nil hu command f
  · rw [he] at hx
    cases hx
  · rw [he] at hx
    cases hx
    obtain ⟨-, rfl⟩ | ⟨_, hn, -⟩ := OrderTracker.plan_ok hplan
    · exact ⟨by rw [← OrderTracker.plan_perform, hplan]; rfl, synced_of_agrees hmax hu ha⟩
    · cases hn
  · rw [he] at hx
    cases hx
    obtain ⟨hn, -⟩ | ⟨orders, horders, hplanned⟩ := OrderTracker.plan_ok hplan
    · cases hn
    cases horders
    have hs : ∀ order ∈ records, (payload order).length < 2 ^ 32 :=
      fun order ho => OrderJournal.small_of_encodes hmax (hall order ho)
    exact ⟨by rw [← OrderTracker.plan_perform, hplan]; rfl, synced_of_agrees hmax hu (ha.append hplanned hall hs)⟩
  · rw [he] at hx
    cases hx

theorem step_restorable {step : Step} (hs : s.Synced) (hr : s.AllRestorable) (hp : Plain step)
    (hok : s.Succeeds step) : (s.step step).Synced ∧ ((s.step step).AllRestorable ↔ s.Sound step) := by
  obtain ⟨act, faults⟩ := step
  obtain ⟨rfl, hmax⟩ := hp
  cases act with
  | «open» journal =>
    obtain ⟨p, w, ho⟩ := hok
    refine ⟨open_synced journal (hmax journal rfl) s.file, iff_of_true ?_ trivial⟩
    rw [step_open, ho]
    rintro p' hp
    cases hp
    exact recovered_restorable ho
  | close =>
    refine ⟨fun p hp => ?_, iff_of_true (fun p hp => ?_) trivial⟩
    · cases hp
    · cases hp
  | execute command =>
    obtain ⟨p, hp, p', w, hx⟩ := hok
    obtain ⟨file, tracker⟩ := s
    cases hp
    obtain ⟨hm, hu, f, hf, ha⟩ := hs p rfl
    cases hf
    obtain ⟨hperform, hsynced⟩ := execute_succeeds hm hu ha hx
    rw [step_execute, hx]
    refine ⟨hsynced, fun h => ?_, fun h => ?_⟩
    · exact OrderTracker.sound_of_restorable (hr p rfl) hperform (h p' rfl)
    · rintro q hq
      cases hq
      rw [← OrderTracker.after_ok hperform]
      exact OrderTracker.after_restorable (hr p rfl) h

theorem along_sound_iff (file : Option Bytes) (steps : List Step) (hp : ∀ step ∈ steps, Plain step)
    (hok : Runs.Along Host.step Succeeds ⟨file, none⟩ steps) :
    (∀ before, before <+: steps → (Runs.run Host.step ⟨file, none⟩ before).Reopens) ↔
      Runs.Along Host.step Sound ⟨file, none⟩ steps := by
  refine Runs.good_iff Host.step (I := fun s => s.Synced ∧ s.AllRestorable) (D := fun s step => Plain step ∧ s.Succeeds step)
    (fun s h => h.1.reopens_iff_restorable.mpr h.2) (fun s step h hd hq => ?_) (fun s step h hd hc => ?_) ?_ ?_
  · obtain ⟨hs, hr⟩ := step_restorable h.1 h.2 hd.1 hd.2
    exact ⟨hs, hr.mpr hq⟩
  · obtain ⟨hs, hr⟩ := step_restorable h.1 h.2 hd.1 hd.2
    exact hr.mp (hs.reopens_iff_restorable.mp hc)
  · refine ⟨fun p h => ?_, fun p h => ?_⟩
    · cases h
    · cases h
  · rw [Runs.along_iff] at hok ⊢
    exact fun before step hb => ⟨hp step (hb.subset (by simp)), hok before step hb⟩

/-- In a run of operations that all succeed, the journal opens again from every state exactly when every report that is
applied to a tracked order has a positive amount and a filled amount that is not negative. -/
theorem reopens_iff (file : Option Bytes) (steps : List Step) (hp : ∀ step ∈ steps, Plain step)
    (hok : ∀ before step, before ++ [step] <+: steps → (Runs.run Host.step ⟨file, none⟩ before).Succeeds step) :
    (∀ before, before <+: steps → (Runs.run Host.step ⟨file, none⟩ before).Reopens) ↔
      ∀ before step, before ++ [step] <+: steps → (Runs.run Host.step ⟨file, none⟩ before).Sound step := by
  rw [← Runs.along_iff] at hok ⊢
  exact along_sound_iff file steps hp hok

end Host

open Codec

def OrderRecord.Decoded (rest : RestReader) (order : OrderRecord) : Prop :=
  ∃ json limits, rest.decodeOrderResponse json limits = .ok order ∨
    ∃ page, rest.decodeOrdersResponse json limits = .ok page ∧ order ∈ page.orders

def Command.Decoded (rest : RestReader) (websocket : WebsocketReader) : Command → Prop
  | .applyRestOrder order => OrderRecord.Decoded rest order
  | .applyWalletEvent event => ∃ json limits, websocket.decodePrivateWsFrame json limits = .ok (.walletEvent event)
  | .reconcile _ snapshot => ∀ order ∈ snapshot, OrderRecord.Decoded rest order
  | _ => True

def cancelledText : Bytes :=
  ascii "\x7b\"success\":true,\"data\":\x7b\"order\":\x7b\"hash\":\"" ++ sampleHash ++ ascii "\",\"salt\":0," ++
    ascii "\"maker\":\"0x1111111111111111111111111111111111111111\"," ++
    ascii "\"signer\":\"0x1111111111111111111111111111111111111111\"," ++
    ascii "\"taker\":\"0x0000000000000000000000000000000000000000\"," ++
    ascii "\"tokenId\":0,\"makerAmount\":0,\"takerAmount\":0,\"expiration\":0," ++
    ascii "\"nonce\":0,\"feeRateBps\":0,\"side\":0,\"signatureType\":0,\"signature\":\"\"\x7d," ++
    ascii "\"id\":\"1\",\"marketId\":1,\"currency\":\"USDB\",\"amount\":0,\"amountFilled\":0," ++
    ascii "\"isNegRisk\":false,\"isYieldBearing\":false,\"strategy\":\"LIMIT\"," ++
    ascii "\"status\":\"CANCELLED\",\"rewardEarningRate\":0\x7d\x7d"

def cancelledWire : WireOrderResponse where
  success := some true
  data := some {
    order := some {
      hash := some sampleHash
      salt := some (ascii "0")
      maker := some (ascii "0x1111111111111111111111111111111111111111")
      signer := some (ascii "0x1111111111111111111111111111111111111111")
      taker := some (ascii "0x0000000000000000000000000000000000000000")
      tokenId := some (ascii "0")
      makerAmount := some (ascii "0")
      takerAmount := some (ascii "0")
      expiration := some (ascii "0")
      nonce := some (ascii "0")
      feeRateBps := some (ascii "0")
      side := some 0
      signatureType := some 0
      signature := some [] }
    id := some (ascii "1")
    marketId := some 1
    currency := some (ascii "USDB")
    amount := some (ascii "0")
    amountFilled := some (ascii "0")
    isNegRisk := some false
    isYieldBearing := some false
    strategy := some (ascii "LIMIT")
    status := some (ascii "CANCELLED")
    rewardEarningRate := some (ascii "0") }

def cancelledReader : RestReader where
  string := fun _ => none
  orders := fun _ => none
  order := fun json => if json = cancelledText then some cancelledWire else none

def oneAddress : EvmAddress := ⟨List.replicate 20 0x11, by decide⟩

def cancelledRecord : OrderRecord :=
  { sampleRecord sampleHash ⟨.cancelled, ascii "CANCELLED"⟩ .zero .zero with
    order := { (sampleRecord sampleHash ⟨.cancelled, ascii "CANCELLED"⟩ .zero .zero).order with
      maker := oneAddress
      signer := oneAddress } }

theorem cancelledRecord_decoded : OrderRecord.Decoded cancelledReader cancelledRecord := by
  have hread : cancelledReader.order cancelledText = some cancelledWire := by simp only [cancelledReader, if_true]
  refine ⟨cancelledText, {}, Or.inl ?_⟩
  rw [cancelledReader.decodeOrderResponse_of_read (by decide +kernel) hread rfl rfl]
  decide +kernel

/-- An order is submitted and the venue reports that it was cancelled. -/
def lockedOut : List Step :=
  [⟨.open OrderJournal.sampleJournal, []⟩, ⟨.execute (.beginSubmission sampleHash tenShares), []⟩,
    ⟨.execute (.applyRestOrder cancelledRecord), []⟩]

namespace Host

theorem lockedOut_plain : ∀ step ∈ lockedOut, Plain step := by
  intro step hs
  simp only [lockedOut, List.mem_cons, List.not_mem_nil, or_false] at hs
  rcases hs with rfl | rfl | rfl
  · refine ⟨rfl, fun journal hj => ?_⟩
    cases hj
    decide
  · exact ⟨rfl, fun journal hj => by cases hj⟩
  · exact ⟨rfl, fun journal hj => by cases hj⟩

theorem lockedOut_decoded (websocket : WebsocketReader) : ∀ step ∈ lockedOut,
    ∀ command, step.act = .execute command → command.Decoded cancelledReader websocket := by
  intro step hs command hc
  simp only [lockedOut, List.mem_cons, List.not_mem_nil, or_false] at hs
  rcases hs with rfl | rfl | rfl
  · cases hc
  · cases hc
    trivial
  · cases hc
    exact cancelledRecord_decoded

theorem lockedOut_succeeds : Runs.Along Host.step Succeeds ⟨none, none⟩ lockedOut := by
  have husable := OrderJournal.sampleJournal_usable
  have hplan : (freshTracker OrderJournal.sampleJournal).tracker.plan (.beginSubmission sampleHash tenShares) = _ :=
    OrderTracker.plan_beginSubmission (by decide) tenShares_pos (freshTracker_find _ _)
  have hfit : ∀ order ∈ [submitted sampleHash tenShares], Encodes OrderJournal.sampleJournal.options.maximumRecordBytes order := by
    intro order ho
    obtain rfl := List.mem_singleton.mp ho
    exact ⟨by decide, by decide⟩
  have hreport : ((freshTracker OrderJournal.sampleJournal).tracker.store (submitted sampleHash tenShares)).plan
      (.applyRestOrder cancelledRecord) = _ :=
    OrderTracker.plan_applyRestOrder (by rw [OrderTracker.find_store]; exact if_pos rfl)
  refine ⟨⟨_, _, open_fresh husable⟩, ?_⟩
  rw [step_open_fresh husable]
  refine ⟨⟨_, rfl, _, _, PersistentOrderTracker.execute_ok husable hplan hfit⟩, ?_⟩
  rw [step_execute_ok husable hplan hfit]
  refine ⟨⟨_, rfl, _, _, PersistentOrderTracker.execute_ok husable hreport ?_⟩, trivial⟩
  intro order ho
  obtain rfl := List.mem_singleton.mp ho
  exact ⟨by decide, by decide⟩

theorem reopens_after_submission : (Runs.run Host.step ⟨none, none⟩ (lockedOut.take 2)).Reopens := by
  refine (reopens_iff none (lockedOut.take 2) (fun step hs => lockedOut_plain step (List.mem_of_mem_take hs)) ?_).mpr ?_ _
    (List.prefix_refl _)
  · rw [← Runs.along_iff]
    exact ⟨lockedOut_succeeds.1, lockedOut_succeeds.2.1, trivial⟩
  · rw [← Runs.along_iff]
    obtain ⟨p, hp, -⟩ := lockedOut_succeeds.2.1
    exact ⟨trivial, (sound_execute hp _ _).mpr trivial, trivial⟩

theorem not_reopens :
    ¬∀ (rest : RestReader) (websocket : WebsocketReader) (file : Option Bytes) (steps : List Step),
      (∀ step ∈ steps, Plain step ∧ ∀ command, step.act = .execute command → command.Decoded rest websocket) →
      (∀ before step, before ++ [step] <+: steps → (Runs.run Host.step ⟨file, none⟩ before).Succeeds step) →
      ∀ before, before <+: steps → (Runs.run Host.step ⟨file, none⟩ before).Reopens := by
  intro h
  have hreopens := h cancelledReader ⟨fun _ => none, fun _ => none, fun _ => none⟩ none lockedOut
    (fun step hs => ⟨lockedOut_plain step hs, lockedOut_decoded _ step hs⟩)
    ((Runs.along_iff _ _ _ _).mp lockedOut_succeeds)
  have hsound := (along_sound_iff none lockedOut lockedOut_plain lockedOut_succeeds).mp hreopens
  obtain ⟨p, hp, -⟩ := lockedOut_succeeds.2.2.1
  have hlast : 0 < ExactDecimal.zero.value := ((sound_execute hp _ _).mp hsound.2.2.1).1
  exact (positive_iff .zero).mpr hlast (Or.inr (by decide))

end Host

end Lifecycle

end PredictFun
