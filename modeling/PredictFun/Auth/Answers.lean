import PredictFun.Auth.Client

namespace PredictFun.Auth

open Base Net Codec Program

def Query.outward : Query → Bool
  | .send _ _ | .signMessage _ | .handle _ => true
  | _ => false

def Query.handles : Query → Bool
  | .handle _ => true
  | _ => false

def Query.sends (method : HttpMethod) : Query → Bool
  | .send sent _ => decide (sent = method)
  | _ => false

def outward (events : List (Event Answer)) : List (Event Answer) := events.filter (fun event => event.1.outward)

def handled (events : List (Event Answer)) : List (Event Answer) := events.filter (fun event => event.1.handles)

def sent (method : HttpMethod) (events : List (Event Answer)) : List (Event Answer) :=
  events.filter (fun event => event.1.sends method)

theorem handled_outward (events : List (Event Answer)) : handled (outward events) = handled events := by
  rw [handled, outward, List.filter_filter]
  refine List.filter_congr ?_
  rintro ⟨query, answer⟩ -
  cases query <;> rfl

theorem sent_outward (method : HttpMethod) (events : List (Event Answer)) :
    sent method (outward events) = sent method events := by
  rw [sent, outward, List.filter_filter]
  refine List.filter_congr ?_
  rintro ⟨query, answer⟩ -
  cases query <;> simp [Query.sends, Query.outward]

theorem mem_outward {event : Event Answer} {events : List (Event Answer)} (h : event.1.outward = true) :
    event ∈ outward events ↔ event ∈ events := by
  simp [outward, h]

theorem outward_append (first second : List (Event Answer)) : outward (first ++ second) = outward first ++ outward second :=
  List.filter_append ..

theorem outward_cons {event : Event Answer} (h : event.1.outward = true) (events : List (Event Answer)) :
    outward (event :: events) = event :: outward events :=
  List.filter_cons_of_pos h

section

variable {client : AuthClient} {handler : Result Trading.HttpResponse → Callbacks} {sends sends' : List (Event Answer) → Prop}

/-- Every way on from here calls the handler, with some result, after outward calls as `sends` says. -/
def Leads (handler : Result Trading.HttpResponse → Callbacks) (sends : List (Event Answer) → Prop) (p : Callbacks) : Prop :=
  ∀ events ending, p.Yields events ending → ∃ raw before after,
    events = before ++ after ∧ sends (outward before) ∧ (handler raw).Yields after ending

theorem Leads.call (raw : Result Trading.HttpResponse) (h : sends []) : Leads handler sends (handler raw) :=
  fun events _ hy => ⟨raw, [], events, rfl, h, hy⟩

theorem Leads.access {update : RateLimiter → RateLimiter} {next : RateLimiter → Callbacks}
    (h : ∀ limiter, Leads handler sends (next limiter)) : Leads handler sends (.access update next) := by
  rintro events ending ⟨limiter, hy⟩
  exact h limiter events ending hy

theorem Leads.ask {query : Query} {next : Answer query → Callbacks} (hq : query.outward = false)
    (h : ∀ answer, Leads handler sends (next answer)) : Leads handler sends (.ask query next) := by
  rintro events ending ⟨answer, rest, rfl, hy⟩
  obtain ⟨raw, before, after, rfl, hs, hy⟩ := h answer rest ending hy
  refine ⟨raw, ⟨query, answer⟩ :: before, after, rfl, ?_, hy⟩
  rwa [outward, List.filter_cons_of_neg (by simp [hq])]

theorem Leads.send {query : Query} {next : Answer query → Callbacks} (hq : query.outward = true)
    (h : ∀ answer, Leads handler (fun calls => sends (⟨query, answer⟩ :: calls)) (next answer)) :
    Leads handler sends (.ask query next) := by
  rintro events ending ⟨answer, rest, rfl, hy⟩
  obtain ⟨raw, before, after, rfl, hs, hy⟩ := h answer rest ending hy
  refine ⟨raw, ⟨query, answer⟩ :: before, after, rfl, ?_, hy⟩
  rwa [outward_cons hq]

def Requested (client : AuthClient) (method : HttpMethod) (target body : Bytes) (calls : List (Event Answer)) : Prop :=
  calls = [] ∨ ∃ key result, calls = [⟨.send method (client.request target body key), result⟩]

theorem leads_completed (endpoint : Bytes) (result : Result Trading.HttpResponse) (h : sends []) :
    Leads handler sends (AuthClient.completed endpoint handler result) := by
  unfold AuthClient.completed
  split
  · exact .call _ h
  · dsimp only
    split_ifs
    · exact .call _ h
    · exact .call _ h
    · exact .call _ h
    · exact .ask rfl fun asked => .ask rfl fun now => .access fun _ => .call _ h
    · exact .call _ h
    · exact .call _ h

variable (client handler) (method : HttpMethod) (target body : Bytes) (context : RequestContext)

theorem leads_submit : Leads handler (Requested client method target body) (client.submit method target body handler) := by
  refine .ask rfl fun key => ?_
  split
  · exact .call _ (.inl rfl)
  · split_ifs
    · exact .call _ (.inl rfl)
    · exact .send rfl fun result => leads_completed target result (.inr ⟨_, result, rfl⟩)

theorem leads_send : Leads handler (Requested client method target body) (client.send method target body context handler) := by
  refine .ask rfl fun stopped => ?_
  split_ifs
  · exact .call _ (.inl rfl)
  · exact leads_submit client handler method target body
  · refine .ask rfl fun now => ?_
    split_ifs
    · exact .call _ (.inl rfl)
    · exact leads_submit client handler method target body

theorem leads_reserveAndSend :
    Leads handler (Requested client method target body) (client.reserveAndSend method target body context handler) := by
  refine .ask rfl fun stopped => ?_
  split_ifs
  · exact .call _ (.inl rfl)
  refine .ask rfl fun now => ?_
  split_ifs
  · exact .call _ (.inl rfl)
  refine .access fun limiter => ?_
  dsimp only
  split_ifs
  · exact leads_send client handler method target body context
  · exact .call _ (.inl rfl)
  refine .ask rfl fun aborted => ?_
  split_ifs
  · exact .call _ (.inl rfl)
  · exact leads_send client handler method target body context

end

section

variable (client : AuthClient)

def Exchanged (message signature : Bytes) (calls : List (Event Answer)) : Prop :=
  calls = [] ∨ ∃ address body key result,
    encodeAuthProof client.json ⟨address, signature, message⟩ client.options.codecLimits = .ok body ∧
    calls = [⟨.send .post (client.request authExchangeTarget body key), result⟩]

inductive Concluded : List (Event Answer) → Ending → Prop
  | unsigned (result : Result Bytes) : Concluded [⟨.handle result, ()⟩] .returned
  | threw (message : Bytes) : Concluded [⟨.signMessage message, .threw⟩] .escaped
  | refused (message : Bytes) (error : Error) (result : Result Bytes) :
    Concluded [⟨.signMessage message, .called (.error error)⟩, ⟨.handle result, ()⟩] .returned
  | proved {message signature : Bytes} {posts : List (Event Answer)} (h : Exchanged client message signature posts)
      (result : Result Bytes) :
    Concluded (⟨.signMessage message, .called (.ok signature)⟩ :: (posts ++ [⟨.handle result, ()⟩])) .returned

variable {client} {context : RequestContext} {events : List (Event Answer)} {ending : Ending}

theorem outward_call {result : Result Bytes} (h : (Handler.held.call result).Yields events ending) :
    outward events = [⟨.handle result, ()⟩] ∧ ending = .returned := by
  obtain ⟨-, rest, rfl, rfl, rfl⟩ := h
  exact ⟨rfl, rfl⟩

theorem outward_signed {challenge signature : Bytes}
    (h : (client.signed context challenge .held (.ok signature)).Yields events ending) :
    ∃ posts result, Exchanged client challenge signature posts ∧ outward events = posts ++ [⟨.handle result, ()⟩] ∧
      ending = .returned := by
  obtain ⟨stopped, events, rfl, h⟩ := h
  dsimp only at h
  split_ifs at h
  · obtain ⟨hcalls, rfl⟩ := outward_call h
    exact ⟨[], _, .inl rfl, hcalls, rfl⟩
  obtain ⟨address, events, rfl, h⟩ := h
  dsimp only at h
  split at h
  · obtain ⟨hcalls, rfl⟩ := outward_call h
    exact ⟨[], _, .inl rfl, hcalls, rfl⟩
  · rename_i body hbody
    obtain ⟨raw, before, after, rfl, hposts, h⟩ := leads_reserveAndSend client _ .post _ body context _ _ h
    have hanswer : ∃ result, outward after = [⟨.handle result, ()⟩] ∧ ending = .returned := by
      dsimp only at h
      split at h <;> exact ⟨_, outward_call h⟩
    obtain ⟨result, hcalls, rfl⟩ := hanswer
    refine ⟨outward before, result, ?_, ?_, rfl⟩
    · rcases hposts with hnone | ⟨key, reply, hsent⟩
      · exact .inl hnone
      · exact .inr ⟨address, body, key, reply, hbody, hsent⟩
    · change outward (before ++ after) = _
      rw [outward_append, hcalls]

theorem concluded_challenged {message : Result Bytes}
    (h : (client.challenged context .held message).Yields events ending) : Concluded client (outward events) ending := by
  unfold AuthClient.challenged at h
  split at h
  · obtain ⟨hcalls, rfl⟩ := outward_call h
    rw [hcalls]
    exact .unsigned _
  obtain ⟨stopped, events, rfl, h⟩ := h
  dsimp only at h
  split_ifs at h
  · obtain ⟨hcalls, rfl⟩ := outward_call h
    change Concluded client (outward events) .returned
    rw [hcalls]
    exact .unsigned _
  obtain ⟨signing, events, rfl, h⟩ := h
  rename_i challenge _
  change Concluded client (outward (⟨.signMessage challenge, signing⟩ :: events)) ending
  rw [outward_cons rfl]
  cases signing with
  | threw =>
    obtain ⟨rfl, rfl⟩ := h
    exact .threw challenge
  | called signature =>
    cases signature with
    | error error =>
      obtain ⟨hcalls, rfl⟩ := outward_call h
      rw [hcalls]
      exact .refused challenge error _
    | ok signature =>
      obtain ⟨posts, result, hposts, hcalls, rfl⟩ := outward_signed h
      rw [hcalls]
      exact .proved hposts result

theorem outward_asyncAuthenticate {signer : Bool}
    (h : (client.asyncAuthenticate signer context .held).Yields events ending) :
    ∃ gets calls, Requested client .get authMessageTarget [] gets ∧ Concluded client calls ending ∧
      outward events = gets ++ calls := by
  unfold AuthClient.asyncAuthenticate at h
  split_ifs at h
  · obtain ⟨hcalls, rfl⟩ := outward_call h
    exact ⟨[], _, .inl rfl, .unsigned _, hcalls⟩
  · obtain ⟨raw, before, after, rfl, hgets, h⟩ := leads_reserveAndSend client _ .get _ [] context _ _ h
    refine ⟨outward before, outward after, hgets, ?_, outward_append before after⟩
    dsimp only at h
    split at h <;> exact concluded_challenged h

end

variable {client : AuthClient} {gets calls : List (Event Answer)} {ending : Ending}

theorem Requested.counts (h : Requested client .get authMessageTarget [] gets) :
    handled gets = [] ∧ sent .post gets = [] ∧ (sent .get gets).length ≤ 1 ∧
      (∀ message signing, ⟨.signMessage message, signing⟩ ∉ gets) := by
  rcases h with rfl | ⟨key, result, rfl⟩
  · exact ⟨rfl, rfl, by decide, by simp⟩
  · exact ⟨rfl, rfl, le_refl 1, by simp⟩

theorem Requested.of_mem {method sent : HttpMethod} {target body : Bytes} {request : Trading.HttpRequest}
    {result : Result Trading.HttpResponse} (h : Requested client method target body gets)
    (hmem : ⟨.send sent request, result⟩ ∈ gets) : sent = method ∧ request.target = target ∧ request.body = body := by
  rcases h with rfl | ⟨key, reply, rfl⟩
  · exact absurd hmem List.not_mem_nil
  · obtain ⟨⟨rfl, rfl⟩, -⟩ : (sent = method ∧ request = client.request target body key) ∧ HEq result reply := by
      simpa using hmem
    exact ⟨rfl, rfl, rfl⟩

theorem Concluded.answered_iff (h : Concluded client calls ending) :
    (handled calls).length = 1 ∧ ending = .returned ↔ ∀ message, ⟨.signMessage message, .threw⟩ ∉ calls := by
  cases h with
  | unsigned result => simp [handled, Query.handles]
  | threw message => simp
  | refused message error result => simp [handled, Query.handles]
  | proved h result =>
    rcases h with rfl | ⟨address, body, key, reply, -, rfl⟩
    · simp [handled, Query.handles]
    · simp [handled, Query.handles]

theorem Concluded.sent_get (h : Concluded client calls ending) : sent .get calls = [] := by
  cases h with
  | unsigned result => rfl
  | threw message => rfl
  | refused message error result => rfl
  | proved h result =>
    rcases h with rfl | ⟨address, body, key, reply, -, rfl⟩
    · rfl
    · rfl

theorem Concluded.sent_post (h : Concluded client calls ending) : (sent .post calls).length ≤ 1 := by
  cases h with
  | unsigned result => simp [sent, Query.sends]
  | threw message => simp [sent, Query.sends]
  | refused message error result => simp [sent, Query.sends]
  | proved h result =>
    rcases h with rfl | ⟨address, body, key, reply, -, rfl⟩
    · simp [sent, Query.sends]
    · simp [sent, Query.sends]

theorem Concluded.post_signed (h : Concluded client calls ending) {before after : List (Event Answer)}
    {method : HttpMethod} {request : Trading.HttpRequest} {result : Result Trading.HttpResponse}
    (hsplit : calls = before ++ ⟨.send method request, result⟩ :: after) :
    method = .post ∧ request.target = authExchangeTarget ∧ ∃ address message signature,
      ⟨.signMessage message, .called (.ok signature)⟩ ∈ before ∧
      encodeAuthProof client.json ⟨address, signature, message⟩ client.options.codecLimits = .ok request.body := by
  have hmem : ⟨.send method request, result⟩ ∈ calls := by simp [hsplit]
  cases h with
  | unsigned answer => simp at hmem
  | threw message => simp at hmem
  | refused message error answer => simp at hmem
  | @proved message signature posts h answer =>
    rcases h with rfl | ⟨address, body, key, reply, hbody, rfl⟩
    · simp at hmem
    · obtain ⟨⟨rfl, rfl⟩, -⟩ : (method = .post ∧ request = client.request authExchangeTarget body key) ∧ HEq result reply := by
        simpa using hmem
      refine ⟨rfl, rfl, address, message, signature, ?_, hbody⟩
      cases before with
      | nil => simp at hsplit
      | cons first before => exact (List.cons.inj hsplit).1 ▸ List.mem_cons_self

/-- The caller's handler is called exactly once and no exception escapes, unless the signer throws.  In any case there is
at most one challenge GET and one exchange POST, and the POST carries a proof over the message that was signed before. -/
theorem authentication_answers_once (client : AuthClient) (env : Environment RateLimiter Answer) (signer : Bool)
    (context : RequestContext) :
    let run := eval env 0 (client.asyncAuthenticate signer context .held)
    ((handled run.1).length = 1 ∧ run.2 = .returned ↔ ∀ message, ⟨.signMessage message, .threw⟩ ∉ run.1) ∧
      (sent .get run.1).length ≤ 1 ∧ (sent .post run.1).length ≤ 1 ∧
      ∀ before method request result after, run.1 = before ++ ⟨.send method request, result⟩ :: after →
        method = .get ∧ request.target = authMessageTarget ∧ request.body = [] ∨
        method = .post ∧ request.target = authExchangeTarget ∧ ∃ address message signature,
          ⟨.signMessage message, .called (.ok signature)⟩ ∈ before ∧
          encodeAuthProof client.json ⟨address, signature, message⟩ client.options.codecLimits = .ok request.body := by
  intro run
  obtain ⟨gets, calls, hgets, hcalls, hout⟩ :=
    outward_asyncAuthenticate (eval_yields env 0 (client.asyncAuthenticate signer context .held))
  change outward run.1 = gets ++ calls at hout
  obtain ⟨hhandled, hposts, hone, hsigns⟩ := hgets.counts
  refine ⟨?_, ?_, ?_, ?_⟩
  · have hcount : handled run.1 = handled calls := by
      rw [← handled_outward, hout, handled, List.filter_append]
      change handled gets ++ handled calls = handled calls
      rw [hhandled, List.nil_append]
    have hthrew : ∀ message, ⟨.signMessage message, .threw⟩ ∈ run.1 ↔ ⟨.signMessage message, .threw⟩ ∈ calls := by
      intro message
      rw [← mem_outward rfl, hout, List.mem_append, or_iff_right (hsigns message .threw)]
    simp only [hcount, hthrew]
    exact hcalls.answered_iff
  · rw [← sent_outward, hout, sent, List.filter_append]
    change (sent .get gets ++ sent .get calls).length ≤ 1
    rwa [hcalls.sent_get, List.append_nil]
  · rw [← sent_outward, hout, sent, List.filter_append]
    change (sent .post gets ++ sent .post calls).length ≤ 1
    rw [hposts, List.nil_append]
    exact hcalls.sent_post
  · intro before method request result after hsplit
    rw [hsplit, outward_append, outward_cons rfl] at hout
    rcases List.append_eq_append_iff.mp hout with ⟨between, rfl, hrest⟩ | ⟨between, hbefore, hrest⟩
    · cases between with
      | nil =>
        have hfirst : calls = [] ++ ⟨.send method request, result⟩ :: outward after := hrest.symm
        obtain ⟨-, -, address, message, signature, hmem, -⟩ := hcalls.post_signed hfirst
        exact absurd hmem List.not_mem_nil
      | cons event between =>
        obtain ⟨rfl, -⟩ := List.cons.inj hrest
        exact .inl (hgets.of_mem (List.mem_append_right _ List.mem_cons_self))
    · obtain ⟨rfl, htarget, address, message, signature, hmem, hbody⟩ := hcalls.post_signed hrest
      refine .inr ⟨rfl, htarget, address, message, signature, ?_, hbody⟩
      rw [← mem_outward rfl, hbefore]
      exact List.mem_append_right gets hmem

def throwingEnv : Environment RateLimiter Answer where
  state _ := RateLimiter.started {}
  answer _ query := match query with
    | .stopRequested => false
    | .now => 0
    | .apiKey => some []
    | .wait _ => false
    | .send _ _ => .ok ⟨200, [], []⟩
    | .retryAfter _ => none
    | .signerAddress => EvmAddress.filled 1
    | .signMessage _ => .threw
    | .handle _ => ()

def testnetClient : AuthClient where
  options := ⟨.bnbTestnet, {}⟩
  json := ⟨fun _ => some ⟨some true, some (some [1])⟩, fun _ => some ⟨some true, some (some [2])⟩, fun _ => some [3]⟩

def throwingRun : List (Event Answer) × Ending := eval throwingEnv 0 (testnetClient.asyncAuthenticate true {} .held)

theorem throwing_signer_unanswered :
    ⟨.signMessage [1], .threw⟩ ∈ throwingRun.1 ∧ handled throwingRun.1 = [] ∧ throwingRun.2 = .escaped := by
  decide +kernel

end PredictFun.Auth
