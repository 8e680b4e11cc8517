import PredictFun.Execution.Submission
import PredictFun.Lifecycle.Growth

namespace PredictFun.Execution

open Base Storage Lifecycle Trading

def Recorded (file : Option Bytes) (hash : Bytes) : Prop :=
  ∃ (f : Bytes) (records : List TrackedOrder) (torn : Bytes), file = some f ∧
    f = fileMagic ++ records.flatMap frame ++ torn ∧ (∀ order ∈ records, FieldsFit order) ∧
    ∃ order ∈ records, order.orderHash = hash

/-- The appends of a running session complete or take the process with them, and are flushed. -/
def Input.Reliable (input : Input) : Prop :=
  match input.action with
  | .open journal _ => journal.flushAfterAppend = true
  | _ => NoFail input.faults

structure Claims (records : List TrackedOrder) (hashes : List Bytes) : Prop where
  once : hashes.Nodup
  recorded : ∀ hash ∈ hashes, ∃ order ∈ records, order.orderHash = hash

namespace Claims

variable {records done : List TrackedOrder} {hashes hashes' : List Bytes} {hash : Bytes}

theorem nil : Claims records [] := ⟨List.nodup_nil, by simp⟩

theorem perm (h : Claims records hashes) (hp : hashes'.Perm hashes) : Claims records hashes' :=
  ⟨hp.nodup_iff.mpr h.once, fun hash hm => h.recorded hash (hp.subset hm)⟩

theorem sublist (h : Claims records hashes) (hs : hashes'.Sublist hashes) : Claims records hashes' :=
  ⟨h.once.sublist hs, fun hash hm => h.recorded hash (hs.subset hm)⟩

theorem append (h : Claims records hashes) (done : List TrackedOrder) : Claims (records ++ done) hashes :=
  ⟨h.once, fun hash hm => (h.recorded hash hm).imp (fun _ ho => ⟨List.mem_append_left _ ho.1, ho.2⟩)⟩

theorem cons (h : Claims records hashes) (hn : hash ∉ hashes) (hr : ∃ order ∈ records, order.orderHash = hash) :
    Claims records (hash :: hashes) :=
  ⟨List.nodup_cons.mpr ⟨hn, h.once⟩, List.forall_mem_cons.mpr ⟨hr, h.recorded⟩⟩

end Claims

namespace System

def posted (x : System) : List Bytes := x.posts.map Post.hash

structure Running (file : Option Bytes) (posted : List Bytes) (s : Session) : Prop where
  follows : ∃ records, Follows file records s.tracker ∧ Claims records (posted ++ s.waiting)
  tracked : ∀ hash ∈ posted ++ s.waiting, (s.tracker.tracker.find hash).isSome
  traced : s.Traced

/-- Without a session the file is the journal of whatever was posted; before anything was posted it may also be a header
that was cut off. -/
inductive Resting (file : Option Bytes) (posted : List Bytes) : Prop
  | journal (records : List TrackedOrder) (torn : Bytes) (journaled : Journaled file records torn)
      (claims : Claims records posted)
  | header (n : ℕ) (short : n < 8) (cut : file = some (fileMagic.take n)) (unposted : posted = [])

structure Sound (x : System) : Prop where
  recorded : ∀ post ∈ x.posts, Recorded post.file post.hash
  process : match x.session with
    | none => Resting x.file x.posted
    | some s => Running x.file x.posted s

theorem sound_fresh : fresh.Sound := ⟨by simp [fresh], .journal [] [] journaled_none .nil⟩

variable {file : Option Bytes} {s : Session} {x : System}

theorem Running.record {posted : List Bytes} (h : Running file posted s) {hash : Bytes}
    (hm : hash ∈ posted ++ s.waiting) : Recorded file hash := by
  obtain ⟨records, hf, hc⟩ := h.follows
  obtain ⟨f, rfl⟩ := Option.isSome_iff_exists.mp hf.present
  exact ⟨f, records, [], rfl, hf.journaled.file_eq, hf.journaled.fits, hc.recorded hash hm⟩

theorem Running.effect {posted handed : List Bytes} {s s' : Session} {w : World Byte}
    {faults : List Fault} (h : Running file posted s) (hn : NoFail faults)
    (he : Session.Effect s ⟨file, faults⟩ handed (some s', w)) : Running w.file (posted ++ handed) s' := by
  obtain ⟨records, hf, hc⟩ := h.follows
  cases he with
  | idle tracker waiting traced =>
    have hp : ((posted ++ handed) ++ s'.waiting).Perm (posted ++ s.waiting) := by
      rw [List.append_assoc]
      exact waiting.append_left posted
    refine ⟨⟨records, tracker ▸ hf, hc.perm hp⟩, fun hash hm => ?_, traced h.traced⟩
    rw [tracker]
    exact h.tracked hash (hp.subset hm)
  | @done command p _ _ executed tracker keeps =>
    obtain ⟨done, torn, -, hok, -⟩ := PersistentOrderTracker.execute_follows hf hn executed
    obtain ⟨hf', hkept, -⟩ := hok p rfl
    have hp : ((posted ++ []) ++ s'.waiting).Perm (posted ++ s.waiting) := by
      rw [List.append_nil]
      exact keeps.waiting.append_left posted
    refine ⟨⟨records ++ done, tracker ▸ hf', (hc.append done).perm hp⟩, fun hash hm => ?_, keeps.traced h.traced⟩
    rw [tracker]
    exact hkept hash (h.tracked hash (hp.subset hm))
  | @begun hash amount p _ _ executed tracker waiting traced =>
    obtain ⟨done, torn, -, hok, -⟩ := PersistentOrderTracker.execute_follows hf hn executed
    obtain ⟨hf', hkept, hbegun⟩ := hok p rfl
    obtain ⟨hnew, order, ho, rfl, hfound⟩ := hbegun hash amount rfl
    have hp : ((posted ++ []) ++ s'.waiting).Perm (order.orderHash :: (posted ++ s.waiting)) := by
      rw [List.append_nil]
      exact (waiting.append_left posted).trans List.perm_middle
    -- a hash that was posted or may still be is tracked, and this one is not
    have hfresh : order.orderHash ∉ posted ++ s.waiting := by
      intro hm
      have hs := h.tracked _ hm
      rw [hnew] at hs
      cases hs
    refine ⟨⟨records ++ done, tracker ▸ hf', Claims.perm ?_ hp⟩, fun other hm => ?_, traced h.traced⟩
    · exact (hc.append done).cons hfresh ⟨order, List.mem_append_right _ ho, rfl⟩
    · rw [tracker]
      rcases List.mem_cons.mp (hp.subset hm) with rfl | hm
      · rw [hfound]
        rfl
      · exact hkept other (h.tracked other hm)
  | @failed command error _ _ executed tracker keeps =>
    obtain ⟨done, torn, -, -, herr⟩ := PersistentOrderTracker.execute_follows hf hn executed
    have hp : ((posted ++ []) ++ s'.waiting).Perm (posted ++ s.waiting) := by
      rw [List.append_nil]
      exact keeps.waiting.append_left posted
    refine ⟨⟨records ++ done, tracker ▸ herr error rfl, (hc.append done).perm hp⟩, fun hash hm => ?_,
      keeps.traced h.traced⟩
    rw [tracker]
    exact h.tracked hash (hp.subset hm)

theorem Running.ended {posted handed : List Bytes} {w : World Byte}
    {faults : List Fault} (h : Running file posted s) (hn : NoFail faults)
    (he : Session.Effect s ⟨file, faults⟩ handed (none, w)) : Resting w.file (posted ++ handed) := by
  obtain ⟨records, hf, hc⟩ := h.follows
  have hposted : Claims records (posted ++ []) := by
    rw [List.append_nil]
    exact hc.sublist (List.sublist_append_left _ _)
  cases he with
  | crashed executed =>
    obtain ⟨done, torn, hj, -⟩ := PersistentOrderTracker.execute_follows hf hn executed
    exact .journal (records ++ done) torn hj (hposted.append done)
  | exit => exact .journal records [] hf.journaled hposted

variable (client : Client) (path : Bytes)

theorem handed_file {action : Action} {post : Post} (h : post ∈ x.handed s action) :
    post.file = x.file := by
  cases action with
  | trade index event =>
    rw [handed] at h
    split at h
    · obtain ⟨request, -, rfl⟩ := List.mem_map.mp h
      rfl
    · cases h
  | _ => cases h

theorem step_running (hs : x.session = some s) (h : x.Sound) {input : Input}
    (hr : NoFail input.faults) : (x.step client path input).Sound := by
  obtain ⟨file, session, posts⟩ := x
  obtain ⟨action, faults⟩ := input
  subst hs
  have hruns : Running file (posted ⟨file, some s, posts⟩) s := h.process
  have heffect := Session.react_effect client s ⟨file, some s, posts⟩ action ⟨file, faults⟩ hruns.traced
  have hstep : step client path ⟨file, some s, posts⟩ ⟨action, faults⟩ =
      ⟨(s.react client action ⟨file, faults⟩).2.file, (s.react client action ⟨file, faults⟩).1,
        posts ++ handed ⟨file, some s, posts⟩ s action⟩ := rfl
  have hposted (w : World Byte) (s' : Option Session) :
      posted ⟨w.file, s', posts ++ handed ⟨file, some s, posts⟩ s action⟩ =
        posted ⟨file, some s, posts⟩ ++ (handed ⟨file, some s, posts⟩ s action).map Post.hash := List.map_append
  -- a request that is handed over was waiting, so its record is in the file
  have hrecorded : ∀ post ∈ posts ++ handed ⟨file, some s, posts⟩ s action, Recorded post.file post.hash := by
    intro post hp
    rcases List.mem_append.mp hp with hp | hp
    · exact h.recorded post hp
    · rw [handed_file hp]
      exact hruns.record (List.mem_append_right _ (heffect.handed_subset (List.mem_map_of_mem hp)))
  rw [hstep]
  rcases he : s.react client action ⟨file, faults⟩ with ⟨_ | s', w⟩
  · rw [he] at heffect
    refine ⟨hrecorded, ?_⟩
    rw [hposted]
    exact hruns.ended hr heffect
  · rw [he] at heffect
    refine ⟨hrecorded, ?_⟩
    rw [hposted]
    exact hruns.effect hr heffect

theorem Resting.opened {hashes : List Bytes} (h : Resting file hashes) (journal : OrderJournal)
    (faults : List Fault) :
    Resting (PersistentOrderTracker.open journal ⟨file, faults⟩).2.file hashes ∧
      ∀ p w, PersistentOrderTracker.open journal ⟨file, faults⟩ = (.ok p, w) →
        ∀ options, Running w.file hashes ⟨p, options, false, [], [], []⟩ := by
  rcases ho : PersistentOrderTracker.open journal ⟨file, faults⟩ with ⟨o, w⟩
  cases h with
  | journal records torn hj hc =>
    obtain ⟨done, torn', hj', hok⟩ | ⟨rfl, ⟨n, hn, hcut⟩, hno⟩ := PersistentOrderTracker.open_follows hj ho
    · refine ⟨.journal (records ++ done) torn' hj' (hc.append done), fun p w' he options => ?_⟩
      cases he
      obtain ⟨hf, hsome⟩ := hok p rfl
      have hall : hashes ++ Session.waiting ⟨p, options, false, [], [], []⟩ = hashes := List.append_nil _
      refine ⟨⟨records ++ done, hf, by rw [hall]; exact hc.append done⟩, fun hash hm => ?_, fun op hm => by cases hm⟩
      rw [hall] at hm
      obtain ⟨order, hr, rfl⟩ := hc.recorded hash hm
      exact hsome order hr
    · have hnil : records = [] := by
        have he := hj.file_eq
        rw [Option.getD_none, List.append_assoc, List.self_eq_append_right, List.append_eq_nil_iff] at he
        cases records with
        | nil => rfl
        | cons order rest =>
          have hl := congrArg List.length he.1
          rw [List.flatMap_cons, List.length_append, frame_length] at hl
          simp only [List.length_nil] at hl
          omega
      refine ⟨.header n hn hcut ?_, fun p w' he => ?_⟩
      · rw [List.eq_nil_iff_forall_not_mem]
        intro hash hm
        obtain ⟨order, hr, -⟩ := hc.recorded hash hm
        rw [hnil] at hr
        cases hr
      · cases he
        exact absurd rfl (hno p)
  | header n hn hcut hposted =>
    subst hcut
    obtain ⟨hfile, hno⟩ := PersistentOrderTracker.open_torn_header hn ho
    refine ⟨.header n hn hfile hposted, fun p w' he => ?_⟩
    cases he
    exact absurd rfl (hno p)

theorem step_resting (hs : x.session = none) (h : x.Sound) (input : Input) :
    (x.step client path input).Sound := by
  obtain ⟨file, session, posts⟩ := x
  obtain ⟨action, faults⟩ := input
  subst hs
  cases action with
  | «open» journal options =>
    obtain ⟨hrests, hruns⟩ := Resting.opened h.process ⟨path, journal⟩ faults
    change (System.opened _ (Session.open ⟨path, journal⟩ options ⟨file, faults⟩)).Sound
    rcases ho : Session.open ⟨path, journal⟩ options ⟨file, faults⟩ with ⟨s | error | _, w⟩
    · obtain ⟨p, hp, rfl⟩ := open_ok ho
      exact ⟨h.recorded, hruns p w hp options⟩
    all_goals
      refine ⟨h.recorded, ?_⟩
      change Resting w.file (posts.map Post.hash)
      rcases open_file ⟨path, journal⟩ options ⟨file, faults⟩ with hw | hw
      · rw [ho] at hw
        subst hw
        exact h.process
      · rw [ho] at hw
        subst hw
        exact hrests
  | _ => exact h

theorem step_sound (h : x.Sound) {input : Input} (hr : input.Reliable) :
    (x.step client path input).Sound := by
  cases hs : x.session with
  | none => exact step_resting client path hs h input
  | some s =>
    obtain ⟨action, faults⟩ := input
    cases action with
    | «open» journal options =>
      -- a second session is not opened
      have hsame : x.step client path ⟨.open journal options, faults⟩ = x := by
        obtain ⟨file, session, posts⟩ := x
        subst hs
        exact congrArg (System.mk file (some s)) (List.append_nil posts)
      rwa [hsame]
    | _ => exact step_running client path hs h hr

theorem Sound.once (h : x.Sound) : x.posted.Nodup := by
  obtain ⟨file, session, posts⟩ := x
  have hp := h.process
  cases session with
  | none =>
    cases (hp : Resting file _) with
    | journal records torn hj hc => exact hc.once
    | header n hn hcut hposted =>
      rw [hposted]
      exact List.nodup_nil
  | some s =>
    obtain ⟨records, -, hc⟩ := (hp : Running file _ s).follows
    exact hc.once.sublist (List.sublist_append_left _ _)

theorem run_sound {inputs : List Input} (h : ∀ input ∈ inputs, input.Reliable) :
    (Runs.run (step client path) fresh inputs).Sound :=
  Runs.run_invariant (I := Sound) (step client path) (fun _ _ hs hr => step_sound client path hs hr) sound_fresh
    (Runs.along_of_forall (step client path) h fresh)

/-- Whatever the session, the venue, the disk and the process do: when a request is handed to the transport the journal
has a complete record of its order, and no order is ever posted twice. -/
theorem posted_once_after_record (inputs : List Input) (h : ∀ input ∈ inputs, input.Reliable) :
    (∀ post ∈ (Runs.run (step client path) fresh inputs).posts, Recorded post.file post.hash) ∧
      ∀ hash, ((Runs.run (step client path) fresh inputs).posts.map Post.hash).count hash ≤ 1 := by
  have hs := run_sound client path h
  exact ⟨hs.recorded, fun hash => List.nodup_iff_count_le_one.mp hs.once hash⟩

def jsonString (text : Bytes) : Bytes := byte '"' :: text ++ [byte '"']

def jsonMember (name : String) (value : Bytes) : Bytes := jsonString (ascii name) ++ ascii ":" ++ value

def jsonObject (members : List Bytes) : Bytes := ascii "\x7b" ++ (members.intersperse (ascii ",")).flatten ++ ascii "\x7d"

def jsonBool (value : Bool) : Bytes := if value then ascii "true" else ascii "false"

/-- A create request as the JSON library writes it; no text of the sample needs an escape. -/
def plainJson (wire : Codec.WireCreateOrderWrite) : Bytes :=
  jsonObject [jsonMember "data" (jsonObject
    ([jsonMember "pricePerShare" (jsonString wire.data.pricePerShare), jsonMember "strategy" (jsonString wire.data.strategy)] ++
      (wire.data.slippageBps.map (fun v => jsonMember "slippageBps" (jsonString v))).toList ++
      (wire.data.isFillOrKill.map (fun v => jsonMember "isFillOrKill" (jsonBool v))).toList ++
      (wire.data.isPostOnly.map (fun v => jsonMember "isPostOnly" (jsonBool v))).toList ++
      (wire.data.reservedBalancePolicy.map (fun v => jsonMember "reservedBalancePolicy" (jsonString v))).toList ++
      (wire.data.isMinAmountOut.map (fun v => jsonMember "isMinAmountOut" (jsonBool v))).toList ++
      (wire.data.selfTradePrevention.map (fun v => jsonMember "selfTradePrevention" (jsonString v))).toList ++
      [jsonMember "order" (jsonObject
        [jsonMember "hash" (jsonString wire.data.order.hash), jsonMember "salt" (jsonString wire.data.order.salt),
          jsonMember "maker" (jsonString wire.data.order.maker), jsonMember "signer" (jsonString wire.data.order.signer),
          jsonMember "taker" (jsonString wire.data.order.taker), jsonMember "tokenId" (jsonString wire.data.order.tokenId),
          jsonMember "makerAmount" (jsonString wire.data.order.makerAmount),
          jsonMember "takerAmount" (jsonString wire.data.order.takerAmount),
          jsonMember "expiration" (Codec.decimalText wire.data.order.expiration.toNat),
          jsonMember "nonce" (jsonString wire.data.order.nonce),
          jsonMember "feeRateBps" (jsonString wire.data.order.feeRateBps),
          jsonMember "side" (Codec.decimalText wire.data.order.side.toNat),
          jsonMember "signatureType" (Codec.decimalText wire.data.order.signatureType.toNat),
          jsonMember "signature" (jsonString wire.data.order.signature)])]))]

def sampleClient : Client := ⟨.bnbTestnet, ⟨fun wire => some (plainJson wire), fun _ => none⟩, {}, fun _ => 0⟩

def tenSharesWei : Uint256 := ⟨ascii "10000000000000000000", by decide, by decide, by decide⟩

def sampleRequest : CreateOrderRequest where
  order := ⟨sampleNumber, sampleAddress, sampleAddress, none, sampleNumber, tenSharesWei, tenSharesWei, sampleNumber,
    sampleNumber, sampleNumber, .buy, .eoa, ascii "0x11"⟩
  orderHash := sampleHash
  pricePerShareWei := tenSharesWei
  strategy := .limit
  slippageBps := none
  isFillOrKill := none
  isPostOnly := none
  reservedBalancePolicy := none
  isMinAmountOut := none
  selfTradePrevention := none

theorem validate_sample : validateCreateOrder sampleRequest = .ok sampleHash := by decide

theorem amount_sample : trackedShareAmount sampleRequest = .ok tenShares := by decide

def sampleSession : Session := ⟨freshTracker OrderJournal.sampleJournal, {}, false, [], [], []⟩

theorem step_open_sample (client : Client) :
    step client OrderJournal.sampleJournal.path fresh ⟨.open {} {}, []⟩ = ⟨some fileMagic, some sampleSession, []⟩ := by
  have ho := Host.open_fresh OrderJournal.sampleJournal_usable
  have hs : Session.open OrderJournal.sampleJournal {} ⟨none, []⟩ = (.ok sampleSession, ⟨some fileMagic, []⟩) := by
    unfold Session.open
    rw [if_neg (by decide), if_neg (by decide), bind_ok ho]
    rfl
  change System.opened fresh (Session.open OrderJournal.sampleJournal {} ⟨none, []⟩) = _
  rw [hs]
  rfl

def sampleMutation (client : Client) : Mutation CreateOrderReceipt :=
  ⟨client.environment, ascii "/v1/orders", plainJson (Codec.wireCreateOrder sampleRequest 0), sampleHash, none, client.decode,
    client.retryAfter⟩

def begunSession (mutation : Mutation CreateOrderReceipt) : Session where
  tracker := { freshTracker OrderJournal.sampleJournal with
    tracker := (freshTracker OrderJournal.sampleJournal).tracker.store (submitted sampleHash tenShares) }
  options := {}
  reconciliationActive := false
  submissions := [⟨sampleHash, .running mutation .initial, none⟩]
  reconciliations := []
  answers := []

def begin : List Input := [⟨.open {} {}, []⟩, ⟨.submit sampleRequest none, []⟩, ⟨.start 0, []⟩]

theorem createOrder_sample {client : Client} (hw : client.json.write = fun wire => some (plainJson wire)) :
    client.createOrder sampleRequest none = .ok (sampleMutation client) := by
  have he : client.json.encodeCreateOrderRequest sampleRequest = .ok (plainJson (Codec.wireCreateOrder sampleRequest 0)) := by
    have hx : Codec.expiration sampleRequest.order.expiration = .ok 0 := by decide
    unfold Codec.TradingJson.encodeCreateOrderRequest
    rw [hx, hw]
    rfl
  unfold Client.createOrder
  rw [validate_sample]
  change (client.json.encodeCreateOrderRequest sampleRequest >>= _) = _
  rw [he]
  rfl

theorem run_begin {client : Client} (hw : client.json.write = fun wire => some (plainJson wire)) :
    Runs.run (step client OrderJournal.sampleJournal.path) fresh begin =
      ⟨some (fileMagic ++ frame (submitted sampleHash tenShares)), some (begunSession (sampleMutation client)), []⟩ := by
  have hplan : (freshTracker OrderJournal.sampleJournal).tracker.plan (.beginSubmission sampleHash tenShares) =
      .ok (some [submitted sampleHash tenShares], _) :=
    OrderTracker.plan_beginSubmission (by decide) ((positive_iff tenShares).mp (by decide))
      (freshTracker_find _ _)
  have hstart : Session.startSubmission client 0 sampleRequest none
      { sampleSession with submissions := [⟨[], .queued sampleRequest none, none⟩] } ⟨some fileMagic, []⟩ = _ :=
    Session.startSubmission_ok client 0 validate_sample amount_sample OrderJournal.sampleJournal_usable hplan
      (by decide)
  have hsubmit : step client OrderJournal.sampleJournal.path ⟨some fileMagic, some sampleSession, []⟩
      ⟨.submit sampleRequest none, []⟩ =
      ⟨some fileMagic, some { sampleSession with submissions := [⟨[], .queued sampleRequest none, none⟩] }, []⟩ := rfl
  have hreact : Session.react client { sampleSession with submissions := [⟨[], .queued sampleRequest none, none⟩] } (.start 0)
      ⟨some fileMagic, []⟩ = _ := hstart
  rw [begin, Runs.run_cons, step_open_sample, Runs.run_cons, hsubmit, Runs.run_cons, Runs.run_nil, step_react rfl hreact]
  unfold Session.dispatch
  rw [createOrder_sample hw]
  rfl

theorem sample_posted_once :
    (∃ post, (Runs.run (step sampleClient OrderJournal.sampleJournal.path) fresh
        (begin ++ [⟨.trade 0 (.start 0 0 (.given [] (ascii "token"))), []⟩])).posts = [post] ∧ post.hash = sampleHash) ∧
      ∀ post ∈ (Runs.run (step sampleClient OrderJournal.sampleJournal.path) fresh
        (begin ++ [⟨.trade 0 (.start 0 0 (.given [] (ascii "token"))), []⟩])).posts, Recorded post.file post.hash := by
  constructor
  · rw [Runs.run_append, run_begin rfl]
    exact ⟨_, rfl, rfl⟩
  · refine (posted_once_after_record sampleClient OrderJournal.sampleJournal.path _ (fun input hi => ?_)).1
    simp only [begin, List.cons_append, List.nil_append, List.mem_cons, List.not_mem_nil, or_false] at hi
    rcases hi with rfl | rfl | rfl | rfl
    · rfl
    · exact NoFail.nil
    · exact NoFail.nil
    · exact NoFail.nil

end System

end PredictFun.Execution
