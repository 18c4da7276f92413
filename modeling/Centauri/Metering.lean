import Centauri.Recorder
import Centauri.Redirector
import Centauri.ReverseProxy

/-! All requests of a frontend on their way through the handler that `createProxy` assembles,
and the handshakes before them, while the table changes. What the recorder counts is compared
with what clients are sent. -/
namespace Centauri

namespace Metering

open Rewriter (Frontend)

variable {K : Type}

inductive Progress (K : Type) where
  /-- At the `DomainRedirector`. -/
  | received (request : Request)
  | redirected (location : Url)
  /-- Handed on to the reverse proxy. -/
  | admitted (request : Request)
  /-- With the transport. -/
  | sent (outbound : Request)
  /-- Without a usable response, about to be handed to the error handler. -/
  | failing (request : Request)
  /-- Counted, with the table that an error page is looked for in once that is known. -/
  | answered (outbound : Request) (response : Response) (fetching : Option (Routes K))
  | erred (request : Request) (fetching : Option (Routes K))
  | done (page : Page)

inductive Action where
  | redirect
  | rewrite (intN : (n : Nat) → 0 < n → Fin n)
  | respond (response : Response)
  | fail
  | trackError
  | fetch
  | finish
  /-- What follows a 101 response: whether the connection can be handed over. -/
  | switchProtocols (works : Bool)

section Steps

variable (f : Frontend K) (routes : Routes K)

/-- Hop-by-hop headers stay behind, unless the response is to a change of protocol. -/
def stripped (response : Response) : Response :=
  if response.statusCode = 101 then response
  else { response with header := ReverseProxy.removeHopByHopHeaders response.header }

/-- `none` where the step is not the next one. -/
def Progress.act (responses : Counters) (action : Action) (progress : Progress K) : Option (Progress K × Counters) :=
  match action, progress with
  | .redirect, .received request =>
    match DomainRedirector.serveHTTP f.toLower routes request with
    | some location => some (.redirected location,responses)
    | none => some (.admitted request,responses)
  | .rewrite intN, .admitted request =>
    if ReverseProxy.refused request then some (.failing request,responses)
    else some (.sent ({ f with routes := routes }.outbound intN request),responses)
  | .respond response, .sent outbound =>
    some (.answered outbound (stripped response) none,
      Recorder.trackResponse f.toLower routes response.statusCode outbound responses)
  | .fail, .sent outbound => some (.failing outbound,responses)
  | .trackError, .failing request =>
    some (.erred request none,Recorder.trackBadGateway f.toLower routes request responses)
  | .fetch, .answered outbound response none => some (.answered outbound response (some routes),responses)
  | .fetch, .erred request none => some (.erred request (some routes),responses)
  | .finish, .answered outbound response (some fetching) =>
    if response.statusCode = 101 then none
    else some (.done (Rewriter.rewriteResponse f.toLower f.errors fetching routes outbound response).page,responses)
  | .finish, .erred request (some fetching) =>
    some (.done (Rewriter.rewriteError f.toLower f.errors handleError fetching routes [] request),responses)
  | .switchProtocols works, .answered outbound response (some fetching) =>
    if response.statusCode = 101 then
      if works then
        some (.done (Rewriter.rewriteResponse f.toLower f.errors fetching routes outbound response).page,responses)
      else some (.failing outbound,responses)
    else none
  | _, _ => none

end Steps

/-- `hellos` is `centauri_tls_hello_total` by its label. -/
structure State (K : Type) where
  routes : Routes K
  responses : Counters
  hellos : Bool → Nat
  requests : List (Progress K)

inductive Event (K : Type) where
  | reload (routes : Routes K)
  | hello (serverName : String)
  | receive (request : Request)
  | act (i : Nat) (action : Action)

def known (cert : Except String (Option (TlsCertificate K))) : Bool :=
  match cert with
  | .ok (some _) => true
  | _ => false

section Machine

variable {S A : Type} (f : Frontend K) (provider : Option (CertificateProvider S A K))

def answered (s : State K) (serverName : String) : Bool :=
  known (s.routes.certificateForClient f.toLower provider serverName)

def trackHello (s : State K) (serverName : String) : State K :=
  let given := answered f provider s serverName
  { s with hellos := Function.update s.hellos given (s.hellos given + 1) }

def State.act (s : State K) (i : Nat) (action : Action) : Option (Progress K × Counters) :=
  s.requests[i]?.bind (Progress.act f s.routes s.responses action)

def next (s : State K) : Event K → State K
  | .reload routes => { s with routes := routes }
  | .hello serverName => trackHello f provider s serverName
  | .receive request => { s with requests := s.requests ++ [.received request] }
  | .act i action =>
    match s.act f i action with
    | none => s
    | some (progress,responses) => { s with requests := s.requests.set i progress,responses := responses }

def machine : Machine (State K) (Event K) where
  Enabled s
    | .act i action => (s.act f i action).isSome = true
    | _ => True
  next := next f provider

instance (s : State K) : (event : Event K) → Decidable ((machine f provider).Enabled s event)
  | .act i action => inferInstanceAs (Decidable ((s.act f i action).isSome = true))
  | .reload _ | .hello _ | .receive _ => inferInstanceAs (Decidable True)

end Machine

section Accounts

/-- The status under which the recorder is handed a request in a step, if it is. -/
def Action.status : Action → Option String
  | .respond response => some (toString response.statusCode)
  | .trackError => some "502"
  | _ => none

def Progress.handed : Progress K → Option Request
  | .sent outbound => some outbound
  | .failing request => some request
  | _ => none

/-- The counter that goes up: that of the route found for the forwarded host. Where there is none,
no counter does. -/
def tracked (f : Frontend K) (routes : Routes K) (action : Action) (progress : Progress K) :
    Option (String × String) :=
  action.status.bind fun status => progress.handed.bind fun request =>
    (routes.routeForDomain f.toLower (HttpHeader.get "X-Forwarded-Host" request.header)).map fun route =>
      (route.primary,status)

def counted (f : Frontend K) (s : State K) : Event K → Option (String × String)
  | .act i action => s.requests[i]?.bind (tracked f s.routes action)
  | _ => none

def greeted {S A : Type} (f : Frontend K) (provider : Option (CertificateProvider S A K)) (s : State K) :
    Event K → Option Bool
  | .hello serverName => some (answered f provider s serverName)
  | _ => none

def Event.pass (i : Nat) : Event K → Option String
  | .act j action => if j = i then action.status else none
  | _ => none

def passes (i : Nat) (trace : List (Event K)) : List String := trace.filterMap (Event.pass i)

/-- Under which statuses a request has been handed to the recorder by the time it has come so far.
A response to a change of protocol is, even if the change then fails. -/
def Progress.Passed (statuses : List String) : Progress K → Prop
  | .received _ | .redirected _ | .admitted _ | .sent _ => statuses = []
  | .failing _ => statuses = [] ∨ statuses = ["101"]
  | .answered _ response _ => statuses = [toString response.statusCode]
  | .erred _ _ => statuses = ["502"] ∨ statuses = ["101","502"]
  | .done page => statuses = [toString page.statusCode] ∨ statuses = ["101","502"] ∧ page.statusCode = 502

end Accounts

section Invariants

variable {f : Frontend K} {routes : Routes K}

@[simp] theorem stripped_statusCode (response : Response) : (stripped response).statusCode = response.statusCode := by
  unfold stripped
  split <;> rfl

/-- An error page has the status of what it replaces. -/
theorem rewriteResponse_statusCode (toLower : String → String) (errors : ErrorClient) (fetching finishing : Routes K)
    (request : Request) (response : Response) :
    (Rewriter.rewriteResponse toLower errors fetching finishing request response).statusCode = response.statusCode := by
  unfold Rewriter.rewriteResponse Rewriter.replaceWithUpstreamErrorPage
  dsimp only
  split
  · split <;> rfl
  · rfl

theorem rewriteError_statusCode (toLower : String → String) (errors : ErrorClient) (fetching finishing : Routes K)
    (writer : HttpHeader) (request : Request) :
    (Rewriter.rewriteError toLower errors handleError fetching finishing writer request).statusCode = 502 := by
  unfold Rewriter.rewriteError Rewriter.serveUpstreamErrorPage
  split
  · next page served =>
    split at served
    · cases served
    · cases served
      rfl
  · rfl

inductive Step : Action → Progress K → Progress K → Prop where
  | redirected : Step .redirect (.received request) (.redirected location)
  | admitted : Step .redirect (.received request) (.admitted request)
  | refused : Step (.rewrite intN) (.admitted request) (.failing request)
  | sent : Step (.rewrite intN) (.admitted request) (.sent outbound)
  | responded : Step (.respond response) (.sent outbound) (.answered outbound (stripped response) none)
  | failed : Step .fail (.sent outbound) (.failing outbound)
  | erred : Step .trackError (.failing request) (.erred request none)
  | fetched : Step .fetch (.answered outbound response none) (.answered outbound response (some fetching))
  | fetchedError : Step .fetch (.erred request none) (.erred request (some fetching))
  | finished : action.status = none → page.statusCode = response.statusCode →
      Step action (.answered outbound response (some fetching)) (.done page)
  | finishedError : page.statusCode = 502 → Step .finish (.erred request (some fetching)) (.done page)
  | unswitched : response.statusCode = 101 →
      Step (.switchProtocols works) (.answered outbound response (some fetching)) (.failing outbound)

theorem track_eq (status : String) (request : Request) (responses : Counters) :
    Recorder.track f.toLower routes status request responses =
      ((routes.routeForDomain f.toLower (HttpHeader.get "X-Forwarded-Host" request.header)).map fun route =>
        (route.primary,status)).elim responses responses.inc := by
  unfold Recorder.track
  cases routes.routeForDomain f.toLower (HttpHeader.get "X-Forwarded-Host" request.header) <;> rfl

/-- Every step is one of these, and raises the one counter that it should. -/
theorem step_of_act {progress progress' : Progress K}
    (acted : progress.act f routes responses action = some (progress',after)) :
    Step action progress progress' ∧ after = (tracked f routes action progress).elim responses responses.inc := by
  unfold Progress.act at acted
  split at acted
  · split at acted
    · cases acted
      exact ⟨.redirected,rfl⟩
    · cases acted
      exact ⟨.admitted,rfl⟩
  · split at acted
    · cases acted
      exact ⟨.refused,rfl⟩
    · cases acted
      exact ⟨.sent,rfl⟩
  · cases acted
    exact ⟨.responded,track_eq (toString _) _ responses⟩
  · cases acted
    exact ⟨.failed,rfl⟩
  · cases acted
    exact ⟨.erred,track_eq "502" _ responses⟩
  · cases acted
    exact ⟨.fetched,rfl⟩
  · cases acted
    exact ⟨.fetchedError,rfl⟩
  · next outbound response fetching =>
    split at acted
    · cases acted
    · cases acted
      exact ⟨.finished rfl (rewriteResponse_statusCode _ _ fetching routes outbound response),rfl⟩
  · cases acted
    exact ⟨.finishedError (rewriteError_statusCode ..),rfl⟩
  · next works outbound response fetching =>
    split at acted
    · next switching =>
      split at acted
      · cases acted
        exact ⟨.finished rfl (rewriteResponse_statusCode _ _ fetching routes outbound response),rfl⟩
      · cases acted
        exact ⟨.unswitched switching,rfl⟩
    · cases acted
  · cases acted

theorem Step.passed {progress progress' : Progress K} {statuses : List String} (step : Step action progress progress')
    (before : progress.Passed statuses) : progress'.Passed (statuses ++ action.status.toList) := by
  cases step with
  | redirected | admitted | sent | fetched | fetchedError => exact (List.append_nil statuses).symm ▸ before
  | refused | failed => exact .inl ((List.append_nil statuses).trans before)
  | responded =>
    obtain rfl := before
    simp [Progress.Passed,Action.status]
  | erred =>
    rcases before with rfl | rfl
    · exact .inl rfl
    · exact .inr rfl
  | finished silent same =>
    rw [silent,Option.toList_none,List.append_nil,Progress.Passed,same]
    exact .inl before
  | finishedError same =>
    rcases before with rfl | rfl
    · refine .inl ?_
      rw [same]
      rfl
    · exact .inr ⟨rfl,same⟩
  | unswitched switching =>
    rw [Progress.Passed,switching] at before
    exact .inr ((List.append_nil statuses).trans before)

structure Followed (past : List (Event K)) (s : State K) : Prop where
  present : ∀ i (progress : Progress K), s.requests[i]? = some progress → progress.Passed (passes i past)
  absent : ∀ i, s.requests.length ≤ i → passes i past = []

variable {S A : Type} {provider : Option (CertificateProvider S A K)} {s : State K}

theorem acted_of_enabled (enabled : (machine f provider).Enabled s (.act i action)) :
    ∃ progress progress', s.requests[i]? = some progress ∧ Step action progress progress' ∧
      (machine f provider).next s (.act i action) = { s with
        requests := s.requests.set i progress'
        responses := (tracked f s.routes action progress).elim s.responses s.responses.inc } := by
  obtain ⟨⟨progress',after⟩,acted⟩ := Option.isSome_iff_exists.mp enabled
  obtain ⟨progress,here,taken⟩ := Option.bind_eq_some_iff.mp acted
  obtain ⟨step,rfl⟩ := step_of_act taken
  refine ⟨progress,progress',here,step,?_⟩
  change next f provider s (.act i action) = _
  rw [next,acted]

theorem passes_snoc (i : Nat) (past : List (Event K)) (event : Event K) :
    passes i (past ++ [event]) = passes i past ++ (event.pass i).toList := by
  rw [passes,List.filterMap_append]
  cases pass : event.pass i <;> simp [passes,pass]

/-- Requests that do not move pass nothing. -/
theorem Followed.silent {past : List (Event K)} (followed : Followed past s) (silent : ∀ i, event.pass i = none) :
    Followed (past ++ [event]) s := by
  have same (i : Nat) : passes i (past ++ [event]) = passes i past := by
    rw [passes_snoc,silent]
    exact List.append_nil _
  exact ⟨fun i progress here => same i ▸ followed.present i progress here,
    fun i beyond => (same i).trans (followed.absent i beyond)⟩

theorem Followed.receive {past : List (Event K)} (followed : Followed past s) (request : Request) :
    Followed past { s with requests := s.requests ++ [.received request] } := by
  refine ⟨fun i progress here => ?_,fun i beyond => followed.absent i ?_⟩
  · by_cases inside : i < s.requests.length
    · rw [List.getElem?_append_left inside] at here
      exact followed.present i progress here
    · have outside := Nat.not_lt.mp inside
      rw [List.getElem?_append_right outside] at here
      obtain rfl := List.mem_singleton.mp (List.mem_of_getElem? here)
      exact followed.absent i outside
  · simp only [List.length_append,List.length_singleton] at beyond
    omega

theorem Followed.act {past : List (Event K)} (followed : Followed past s) (here : s.requests[i]? = some progress)
    (step : Step action progress progress') (responses : Counters) :
    Followed (past ++ [.act i action]) { s with requests := s.requests.set i progress',responses := responses } := by
  obtain ⟨inside,_⟩ := List.getElem?_eq_some_iff.mp here
  refine ⟨fun j other there => ?_,fun j beyond => ?_⟩
  · rw [passes_snoc]
    by_cases same : i = j
    · subst same
      obtain rfl : progress' = other := by simpa [inside] using there
      rw [Event.pass,if_pos rfl]
      exact step.passed (followed.present i progress here)
    · rw [List.getElem?_set_ne same] at there
      rw [Event.pass,if_neg same,Option.toList_none,List.append_nil]
      exact followed.present j other there
  · rw [List.length_set] at beyond
    rw [passes_snoc,Event.pass,if_neg (by omega),followed.absent j beyond]
    rfl

theorem Followed.next {past : List (Event K)} (followed : Followed past s)
    (enabled : (machine f provider).Enabled s event) :
    Followed (past ++ [event]) ((machine f provider).next s event) := by
  cases event with
  | reload routes => exact Followed.silent ⟨followed.present,followed.absent⟩ fun _ => rfl
  | hello serverName => exact Followed.silent ⟨followed.present,followed.absent⟩ fun _ => rfl
  | receive request => exact (followed.receive request).silent fun _ => rfl
  | act i action =>
    obtain ⟨progress,progress',here,step,next⟩ := acted_of_enabled enabled
    rw [next]
    exact followed.act here step _

theorem raised_responses (label : String × String) (enabled : (machine f provider).Enabled s event) :
    ((machine f provider).next s event).responses label =
      s.responses label + (counted f s event).toList.count label := by
  cases event with
  | reload routes => rfl
  | hello serverName => rfl
  | receive request => rfl
  | act i action =>
    obtain ⟨progress,_,here,_,next⟩ := acted_of_enabled enabled
    rw [next,counted,here,Option.bind_some]
    cases tracked f s.routes action progress with
    | none => rfl
    | some raised =>
      by_cases same : label = raised
      · simp [same,Counters.inc]
      · simp [same,Counters.inc,Ne.symm same]

theorem raised_hellos (given : Bool) (event : Event K) :
    ((machine f provider).next s event).hellos given =
      s.hellos given + (greeted f provider s event).toList.count given := by
  cases event with
  | reload routes => rfl
  | receive request => rfl
  | hello serverName =>
    change Function.update _ _ _ given = _
    by_cases same : given = answered f provider s serverName
    · simp [same,greeted]
    · simp [same,greeted,Ne.symm same]
  | act i action =>
    change (next f provider s (.act i action)).hellos given = _
    rw [next]
    split <;> rfl

end Invariants

/-- The metrics over any interleaving of handshakes, requests and reloads. Each request is handed
to the recorder exactly once before its response is sent, under the status that is sent, or else
is a 502 for a change of protocol that failed, which was handed to it as 101 and as 502; and a
redirect is not. Each time the counter of the route found for the forwarded host goes up, if one
is found, and at no other time. The other counter goes up by the handshakes in which a
certificate was returned, or none. -/
theorem accounted {S A : Type} (f : Frontend K) (provider : Option (CertificateProvider S A K)) (start : State K)
    (idle : start.requests = []) (run : (machine f provider).Run start trace final) :
    (∀ i (progress : Progress K), final.requests[i]? = some progress → progress.Passed (passes i trace)) ∧
    (∀ label, final.responses label =
      start.responses label + ((machine f provider).shown (counted f) start trace).count label) ∧
    ∀ given, final.hellos given =
      start.hellos given + ((machine f provider).shown (greeted f provider) start trace).count given := by
  have begins : Followed [] start := ⟨by simp [idle],fun _ _ => rfl⟩
  have followed : Followed trace final := run.history Followed (fun _ _ _ followed => followed.next) begins
  refine ⟨followed.present,?_,?_⟩
  · exact run.counted State.responses fun s _ label => raised_responses label
  · exact run.counted State.hellos fun _ event given _ => raised_hellos given event

end Metering

namespace Sample

def quiet : Metering.State Unit := ⟨mappedRoutes,fun _ => 0,fun _ => 0,[]⟩

/-- The backend agrees to a change of protocol that the client's connection cannot make. Another
client asks with a port in its Host header. -/
def failedSwitch : List (Metering.Event Unit) :=
  [.receive unported,.act 0 .redirect,.act 0 (.rewrite fun _ some => ⟨0,some⟩),
    .act 0 (.respond ⟨"101 Switching Protocols",101,[],[],[]⟩),.act 0 .fetch,.act 0 (.switchProtocols false),
    .receive ported,.act 1 .redirect,.act 1 (.rewrite fun _ some => ⟨0,some⟩),
    .act 1 (.respond ⟨"200 OK",200,[],[],[]⟩),.act 1 .fetch,.act 1 .finish,
    .act 0 .trackError,.act 0 .fetch,.act 0 .finish]

def switched : Metering.State Unit :=
  (Metering.machine mappedFrontend (none : Option (CertificateProvider Unit Unit Unit))).after quiet failedSwitch

/-- The first response is counted twice, the second not at all. -/
theorem failedSwitch_accounted :
    switched.responses ("example.com","101") = 1 ∧ switched.responses ("example.com","502") = 1 ∧
      Metering.passes 1 failedSwitch = ["200"] ∧ ∀ route, switched.responses (route,"200") = 0 := by
  have run : (Metering.machine mappedFrontend (none : Option (CertificateProvider Unit Unit Unit))).Run quiet
      failedSwitch switched := Machine.run_of_allows (by decide +kernel)
  have shown : (Metering.machine mappedFrontend (none : Option (CertificateProvider Unit Unit Unit))).shown
      (Metering.counted mappedFrontend) quiet failedSwitch = [("example.com","101"),("example.com","502")] := by
    decide +kernel
  have counted := (Metering.accounted mappedFrontend none quiet rfl run).2.1
  rw [shown] at counted
  refine ⟨counted _,counted _,by decide +kernel,fun route => ?_⟩
  rw [counted]
  simp [quiet]

end Sample

end Centauri
