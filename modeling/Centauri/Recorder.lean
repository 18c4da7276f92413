import Centauri.Decorators
import Centauri.RouteTable

/-! The response counter. The recorder sees a request after its decorators have, and finds
the route again by what they wrote under `X-Forwarded-Host`. -/
namespace Centauri

variable {K : Type}

/-- `centauri_response_total`, by its labels route and status. -/
abbrev Counters := String × String → Nat

def Counters.inc (labels : String × String) (responses : Counters) : Counters :=
  Function.update responses labels (responses labels + 1)

namespace Recorder

variable (toLower : String → String) (routes : Routes K)

def track (status : String) (request : Request) (responses : Counters) : Counters :=
  match routes.routeForDomain toLower (HttpHeader.get "X-Forwarded-Host" request.header) with
  | some route => responses.inc (route.primary,status)
  | none => responses

def trackBadGateway (request : Request) (responses : Counters) : Counters :=
  track toLower routes "502" request responses

def trackResponse (statusCode : Int) (request : Request) (responses : Counters) : Counters :=
  track toLower routes (toString statusCode) request responses

/-- Whatever becomes of the request, the counter of the route goes up by one and no other
changes. -/
def Attributed (route : Route K) (request : Request) : Prop :=
  ∀ responses, trackBadGateway toLower routes request responses = responses.inc (route.primary,"502") ∧
    ∀ statusCode, trackResponse toLower routes statusCode request responses =
      responses.inc (route.primary,toString statusCode)

/-- A trusted downstream's `X-Forwarded-Host` leads to a route of the same name. Without
one the client's host has no port, or the fallback has the route's name and is served. -/
def Attributable (downstreams : List Net.IPNet) (route : Route K) (request : Request) : Prop :=
  let sent := HttpHeader.get "X-Forwarded-Host" request.header
  if trusted downstreams (remoteIP request) = true ∧ sent ≠ "" then
    ∃ other, routes.routeForDomain toLower sent = some other ∧ other.primary = route.primary
  else
    (∃ why, Net.splitHostPort request.host = .error why) ∨
      ∃ fallback, routes.fallback = some fallback ∧ fallback.certificateStatus.served = true ∧
        fallback.primary = route.primary

variable {toLower routes}

theorem inc_ne (responses : Counters) : responses.inc labels ≠ responses := by
  intro same
  have counted := congrFun same labels
  simp [Counters.inc] at counted

theorem inc_labels (same : Counters.inc labels responses = responses.inc labels') : labels = labels' := by
  by_contra differ
  have counted := congrFun same labels
  simp [Counters.inc,Function.update_of_ne differ] at counted

/-- Both wrappers count for the route exactly when the recorder finds one of its name. -/
theorem attributed_iff_found : Attributed toLower routes route request ↔
    ∃ other, routes.routeForDomain toLower (HttpHeader.get "X-Forwarded-Host" request.header) =
      some other ∧ other.primary = route.primary := by
  constructor
  · intro attributed
    have counted := (attributed fun _ => 0).1
    unfold trackBadGateway track at counted
    split at counted
    next other found => exact ⟨other,found,congrArg Prod.fst (inc_labels counted)⟩
    next => exact absurd counted.symm (inc_ne _)
  · rintro ⟨other,found,name⟩ responses
    simp [trackBadGateway,trackResponse,track,found,name]

end Recorder

section Attribution

variable {lower : Char → Char} {table : RouteTable K}

/-- The name under which the recorder looks a routed request up. -/
theorem forwardedHost {toLower : String → String} {routes : Routes K} {downstreams : List Net.IPNet}
    {intN : (n : Nat) → 0 < n → Fin n} (routed : Routed toLower routes request)
    (tailscale : Option (String → Except String UserProfile)) (header : HttpHeader) :
    HttpHeader.get "X-Forwarded-Host" (rewriteRequest toLower routes (decorators downstreams tailscale)
        intN request { request with header := header }).header =
      if trusted downstreams (remoteIP request) = true ∧
          HttpHeader.get "X-Forwarded-Host" request.header ≠ "" then
        HttpHeader.get "X-Forwarded-Host" request.header
      else request.host := by
  rw [rewriteRequest_header routed,HttpHeader.get,forwarding_canonical.2.1,
    decorators_lookup tailscale (by decide +kernel) (by decide)]
  have address : remoteIP { request with header := header } = remoteIP request := rfl
  simp only [xForwardedForDecorator,lookup_forward,forwarding_canonical,if_true,id,address]
  rw [if_neg (by decide)]

/-- A host with a port is nobody's domain, and gets what the fallback gives. -/
theorem RouteTable.Installed.with_port (installed : table.Installed (Strings.toLower lower))
    (unicode : UnicodeLower lower) (split : Net.splitHostPort host = .ok parts) :
    table.view.routeForDomain (Strings.toLower lower) host = some route ↔
      table.view.fallback = some route ∧ route.certificateStatus.served = true := by
  have missing := installed.colon_missing unicode (Net.mem_of_splitHostPort split)
  rw [Routes.routeForDomain_eq_some,Routes.routeFor,missing]

/-- A request that goes to a route is counted for it exactly when the two lookups cannot
come apart. -/
theorem Recorder.attributed_iff (unicode : UnicodeLower lower) (table : RouteTable K)
    (installed : table.Installed (Strings.toLower lower)) (downstreams : List Net.IPNet)
    (tailscale : Option (String → Except String UserProfile)) (intN : (n : Nat) → 0 < n → Fin n)
    (request : Request) (header : HttpHeader) (route : Route K)
    (found : table.view.routeForDomain (Strings.toLower lower) (hostForRequest request) = some route)
    (upstreams : route.upstreams ≠ []) :
    Attributed (Strings.toLower lower) table.view route
        (rewriteRequest (Strings.toLower lower) table.view (decorators downstreams tailscale) intN
          request { request with header := header }) ↔
      Attributable (Strings.toLower lower) table.view downstreams route request := by
  rw [attributed_iff_found,forwardedHost ⟨route,found,upstreams⟩,Attributable]
  split
  next => exact Iff.rfl
  next =>
    cases split : Net.splitHostPort request.host with
    | error why =>
      have whole : hostForRequest request = request.host := by simp [hostForRequest,split]
      rw [← whole]
      exact iff_of_true ⟨route,found,rfl⟩ (.inl ⟨why,rfl⟩)
    | ok parts =>
      simp only [installed.with_port unicode split,reduceCtorEq,exists_false,false_or,and_assoc]

end Attribution

namespace Sample

def standing : Proxy Unit Unit :=
  (Proxy.setRoutes asciiLower (none : Option (CertificateProvider Unit Unit Unit)) (fun _ => ())
    [plainRoute .notChecked] none ⟨(),.empty⟩).1

theorem standing_installed : standing.table.Installed (Strings.toLower Char.toLower) := by
  rfl

def ported : Request := ⟨⟨"","","/","",""⟩,"example.com:8443",[],"192.0.2.1:50000",true⟩

def unported : Request := { ported with host := "example.com" }

/-- The request goes to the route and its response is not counted. -/
theorem ported_uncounted :
    standing.table.view.routeForDomain (Strings.toLower Char.toLower) (hostForRequest ported) =
      some (plainRoute .notRequired) ∧
    (rewriteRequest (Strings.toLower Char.toLower) standing.table.view (decorators [] none)
      (fun _ some => ⟨0,some⟩) ported ported).url.host = "10.0.0.1:8080" ∧
    ¬Recorder.Attributed (Strings.toLower Char.toLower) standing.table.view (plainRoute .notRequired)
      (rewriteRequest (Strings.toLower Char.toLower) standing.table.view (decorators [] none)
        (fun _ some => ⟨0,some⟩) ported ported) := by
  refine ⟨rfl,rfl,?_⟩
  rw [Recorder.attributed_iff_found]
  rintro ⟨other,found,_⟩
  have missing : standing.table.view.routeForDomain (Strings.toLower Char.toLower) "example.com:8443" =
      none := rfl
  exact absurd (missing.symm.trans found) (by simp)

theorem unported_counted :
    Recorder.Attributed (Strings.toLower Char.toLower) standing.table.view (plainRoute .notRequired)
      (rewriteRequest (Strings.toLower Char.toLower) standing.table.view (decorators [] none)
        (fun _ some => ⟨0,some⟩) unported unported) :=
  (Recorder.attributed_iff .toLower standing.table standing_installed [] none (fun _ some => ⟨0,some⟩)
    unported [] (plainRoute .notRequired) rfl (by decide)).mpr (.inl ⟨"missing port in address",rfl⟩)

end Sample

end Centauri
