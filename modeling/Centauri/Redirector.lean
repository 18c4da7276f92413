import Centauri.RouteTable
import Centauri.Rewriter

/-! Redirects to the primary domain of a route, and where a client ends up that follows
them. -/
namespace Centauri

variable {K : Type}

namespace DomainRedirector

variable (toLower : String → String) (routes : Routes K)

/-- The Location that is answered, or `none` where the next handler gets the request. -/
def serveHTTP (request : Request) : Option Url :=
  let host := hostForRequest request
  match routes.routeForDomain toLower host with
  | none => none
  | some route =>
    if route.redirectToPrimary && route.primary != host then
      some { request.url with
        host := route.primary
        scheme := if request.tls then "https" else "http" }
    else none

/-- A browser lower-cases the host of every URL it visits, and the hosts here are ASCII. -/
def visited (host : String) : String := Strings.toLower Char.toLower host

def follow (request : Request) (location : Url) : Request :=
  { request with
    url := { location with scheme := "",host := "" }
    host := visited location.host
    tls := location.scheme == "https" }

def exchange (request : Request) : Option Request :=
  (serveHTTP toLower routes request).map (follow request)

/-- Every route that redirects and is found under its primary domain has it in lower case. -/
def LowerPrimaries : Prop :=
  ∀ route, routes.get toLower route.primary = some route → route.redirectToPrimary = true →
    visited route.primary = route.primary

/-- Every such route has a primary domain that can be written in one way only. -/
def CaselessPrimaries : Prop :=
  ∀ route, routes.get toLower route.primary = some route → route.redirectToPrimary = true →
    ∀ c ∈ route.primary.toList, c.isAlpha = false

/-- Clients that follow redirects arrive, and one that asks for the primary domain is not
sent on, if it writes hosts as `written` says. -/
def Arrives (written : String → Prop) : Prop :=
  (∀ request, Halts (exchange toLower routes) request) ∧
  ∀ request route, routes.routeForDomain toLower (hostForRequest request) = some route →
    written (hostForRequest request) → visited (hostForRequest request) = visited route.primary →
    serveHTTP toLower routes request = none

variable {toLower routes}

theorem exchange_eq_some (found : routes.routeForDomain toLower (hostForRequest request) = some route)
    (redirects : route.redirectToPrimary = true) (other : route.primary ≠ hostForRequest request) :
    ∃ next, exchange toLower routes request = some next ∧ next.host = visited route.primary := by
  simp [exchange,serveHTTP,found,redirects,other,follow]

theorem exchange_some (moved : exchange toLower routes request = some next) :
    ∃ route, routes.routeForDomain toLower (hostForRequest request) = some route ∧
      route.redirectToPrimary = true ∧ next.host = visited route.primary := by
  unfold exchange serveHTTP at moved
  dsimp only at moved
  split at moved
  · cases moved
  next route found =>
    split at moved
    next redirects =>
      cases moved
      exact ⟨route,found,(Bool.and_eq_true_iff.mp redirects).1,rfl⟩
    next => cases moved

def capitals (domain : String) : String := String.ofList (domain.toList.map Char.toUpper)

theorem toUpper_spec : ∀ n < 128, (Char.ofNat n).toUpper.toLower = (Char.ofNat n).toLower ∧
    ((Char.ofNat n).isLower = true → (Char.ofNat n).toUpper ≠ Char.ofNat n) ∧
    ((Char.ofNat n).toLower = Char.ofNat n → (Char.ofNat n).isAlpha = true → (Char.ofNat n).isLower = true) := by
  decide

theorem capitals_other (valid : isDomainName domain = true) (lowered : visited domain = domain)
    (member : c ∈ domain.toList) (letter : c.isAlpha = true) :
    visited (capitals domain) = visited domain ∧ domain ≠ capitals domain := by
  have spec (c : Char) (member : c ∈ domain.toList) := toUpper_spec c.toNat
    (isDomainChar_ascii (isDomainName_chars valid c member))
  simp only [Char.ofNat_toNat] at spec
  constructor
  · apply congrArg String.ofList
    rw [capitals,String.toList_ofList,List.map_map]
    exact List.map_congr_left fun c member => (spec c member).1
  · intro same
    have fixed : c.toLower = c := by
      have chars := congrArg String.toList lowered
      rw [visited,Strings.toList_toLower] at chars
      exact List.map_eq_map_iff.mp (chars.trans (List.map_id _).symm) c member
    have raised : c.toUpper = c := by
      have chars := congrArg String.toList same
      rw [capitals,String.toList_ofList] at chars
      exact List.map_eq_map_iff.mp (chars.symm.trans (List.map_id _).symm) c member
    exact (spec c member).2.1 ((spec c member).2.2 fixed letter) raised

theorem toLower_of_not_isUpper {c : Char} (other : c.isUpper = false) : c.toLower = c := by
  have small : ¬(65 ≤ c.toNat ∧ c.toNat ≤ 90) := by
    rw [← UnicodeLower.isUpper_iff]
    simp [other]
  unfold Char.toLower
  rw [dif_neg]
  simpa [UInt32.le_iff_toNat_le] using small

theorem visited_caseless (caseless : ∀ c ∈ domain.toList, c.isAlpha = false) : visited domain = domain := by
  have fixed : domain.toList.map Char.toLower = domain.toList.map id := List.map_congr_left fun c member =>
    toLower_of_not_isUpper (Bool.or_eq_false_iff.mp (caseless c member)).1
  rw [visited,Strings.toLower,fixed,List.map_id,String.ofList_toList]

/-- Without letters there is one spelling. -/
theorem eq_of_visited_caseless (caseless : ∀ c ∈ domain.toList, c.isAlpha = false)
    (same : visited host = visited domain) : host = domain := by
  rw [visited_caseless caseless] at same
  have chars : host.toList.map Char.toLower = domain.toList := by
    rw [← same,visited,Strings.toList_toLower]
  have fixed : host.toList.map Char.toLower = host.toList.map id := by
    refine List.map_congr_left fun c member => ?_
    have inside : c.toLower ∈ domain.toList := chars ▸ List.mem_map_of_mem member
    refine (UnicodeLower.same_or_isLower c).resolve_right fun letter => ?_
    have other := (Bool.or_eq_false_iff.mp (caseless _ inside)).2
    simp [letter] at other
  rw [fixed,List.map_id] at chars
  exact String.toList_inj.mp chars

section Termination

variable {lower : Char → Char} {table : RouteTable K}

theorem routeForDomain_servable {toLower : String → String}
    (servable : ∀ route ∈ table.routes, route.certificateStatus.served = true) (host : String) :
    table.view.routeForDomain toLower host = table.view.routeFor toLower host := by
  refine Option.ext fun route => Routes.routeForDomain_eq_some.trans ?_
  exact ⟨And.left,fun found => ⟨found,servable route (RouteTable.routeFor_mem found)⟩⟩

theorem primary_valid {toLower : String → String} (installed : table.Installed toLower)
    (member : route ∈ table.routes) : isDomainName route.primary = true :=
  installed.valid route member route.primary (List.head_mem route.named)

/-- There is no port to strip from a host that is a domain but for letter case. -/
theorem hostForRequest_domain (valid : isDomainName domain = true)
    (same : visited request.host = visited domain) : hostForRequest request = request.host := by
  unfold hostForRequest
  split
  · rfl
  next split =>
    have colon : ':' ∈ (visited request.host).toList := by
      rw [visited,Strings.toList_toLower]
      exact List.mem_map.mpr ⟨':',Net.mem_of_splitHostPort split,by decide⟩
    rw [same] at colon
    exact absurd colon (isDomainName_colon .toLower valid)

theorem visited_visited (host : String) : visited (visited host) = visited host := by
  apply congrArg String.ofList
  rw [visited,Strings.toList_toLower,List.map_map]
  exact List.map_congr_left fun c _ => UnicodeLower.toLower_toLower c

/-- What a client sends for a primary domain. -/
theorem hostForRequest_visited (valid : isDomainName domain = true) (host : request.host = visited domain) :
    hostForRequest request = visited domain :=
  (hostForRequest_domain valid (by rw [host,visited_visited])).trans host

/-- The key of a domain as a client sends it is the key of the domain. -/
theorem visited_key (unicode : UnicodeLower lower) (valid : isDomainName domain = true) :
    Strings.toLower lower (visited domain) = Strings.toLower lower domain := by
  obtain ⟨once,again⟩ := isDomainName_lower unicode valid
  exact again.trans once.symm

/-- So is that of any other spelling. -/
theorem key_of_visited (unicode : UnicodeLower lower) (valid : isDomainName domain = true)
    (same : visited host = visited domain) : Strings.toLower lower host = Strings.toLower lower domain := by
  have narrow : ∀ c ∈ host.toList, c.toNat < 128 := by
    intro c member
    have inside : c.toLower ∈ (visited domain).toList := by
      rw [← same,visited,Strings.toList_toLower]
      exact List.mem_map_of_mem member
    rw [visited,Strings.toList_toLower] at inside
    obtain ⟨d,listed,eq⟩ := List.mem_map.mp inside
    have small := UnicodeLower.toLower_ascii (isDomainChar_ascii (isDomainName_chars valid d listed))
    rw [eq] at small
    by_cases upper : c.isUpper = true
    · have bounds := (UnicodeLower.isUpper_iff c).mp upper
      omega
    · rwa [toLower_of_not_isUpper (by simpa using upper)] at small
  calc Strings.toLower lower host = visited host := Strings.toLower_ascii unicode narrow
    _ = visited domain := same
    _ = Strings.toLower lower domain := (isDomainName_lower unicode valid).1.symm

theorem primary_owned (installed : table.Installed (Strings.toLower lower)) (unicode : UnicodeLower lower)
    (at_i : table.routes[i]? = some route) :
    ∃ j, table.domains (Strings.toLower lower (visited route.primary)) = some j ∧ i ≤ j := by
  have valid := primary_valid installed (List.mem_of_getElem? at_i)
  apply RouteMap.update_listed installed at_i
  exact ⟨route.primary,List.head_mem route.named,(visited_key unicode valid).symm⟩

/-- A redirect to a domain that its own route is found under is the last one. -/
theorem stops_at_primary (unicode : UnicodeLower lower) (lowered : LowerPrimaries (Strings.toLower lower) table.view)
    (valid : isDomainName route.primary = true)
    (found : table.view.get (Strings.toLower lower) (visited route.primary) = some route)
    (host : hostForRequest request = visited route.primary) :
    serveHTTP (Strings.toLower lower) table.view request = none := by
  have own : table.view.get (Strings.toLower lower) route.primary = some route := by
    unfold Routes.get at found ⊢
    rwa [visited_key unicode valid] at found
  have direct : table.view.routeFor (Strings.toLower lower) (hostForRequest request) = some route := by
    rw [host,Routes.routeFor,found]
  unfold serveHTTP
  cases here : table.view.routeForDomain (Strings.toLower lower) (hostForRequest request) with
  | none => simp only [here]
  | some route' =>
    cases direct.symm.trans (Routes.routeForDomain_eq_some.mp here).1
    simp only [here]
    by_cases redirects : route.redirectToPrimary = true
    · have lower := lowered route own redirects
      simp [host,lower]
    · simp [redirects]

/-- The owners of the hosts along a chain of redirects only move towards the end of the
table. -/
theorem halts_of_owner (unicode : UnicodeLower lower) (installed : table.Installed (Strings.toLower lower))
    (servable : ∀ route ∈ table.routes, route.certificateStatus.served = true)
    (lowered : LowerPrimaries (Strings.toLower lower) table.view)
    (owned : table.domains (Strings.toLower lower (hostForRequest request)) = some i) :
    Halts (exchange (Strings.toLower lower) table.view) request := by
  induction left : table.routes.length - i using Nat.strong_induction_on generalizing i request with
  | _ n ih =>
    cases moved : exchange (Strings.toLower lower) table.view request with
    | none => exact .stop moved
    | some next =>
      obtain ⟨route,found,_,host⟩ := exchange_some moved
      obtain ⟨⟨route',at_i,_⟩,_⟩ := (RouteMap.update_eq_some_iff installed).mp owned
      have same : route' = route := by
        rw [routeForDomain_servable servable,Routes.routeFor,RouteTable.get_of_owned owned at_i] at found
        exact Option.some.inj found
      subst same
      have valid := primary_valid installed (List.mem_of_getElem? at_i)
      have arrived := hostForRequest_visited valid host
      obtain ⟨j,owned',later⟩ := primary_owned installed unicode at_i
      apply Halts.next moved
      rcases Nat.lt_or_eq_of_le later with further | rfl
      · have inside := (List.getElem?_eq_some_iff.mp at_i).1
        refine ih _ ?_ (by rw [arrived]; exact owned') rfl
        omega
      · -- the route owns its primary domain, where the chain ends
        have found' := RouteTable.get_of_owned owned' at_i
        apply Halts.stop
        rw [exchange,stops_at_primary unicode lowered valid found' arrived]
        rfl

/-- A chain that starts at the fallback goes on at a domain some route lists. -/
theorem halts (unicode : UnicodeLower lower) (installed : table.Installed (Strings.toLower lower))
    (servable : ∀ route ∈ table.routes, route.certificateStatus.served = true)
    (lowered : LowerPrimaries (Strings.toLower lower) table.view) (request : Request) :
    Halts (exchange (Strings.toLower lower) table.view) request := by
  cases moved : exchange (Strings.toLower lower) table.view request with
  | none => exact .stop moved
  | some next =>
    obtain ⟨route,found,_,host⟩ := exchange_some moved
    rw [routeForDomain_servable servable] at found
    have member := RouteTable.routeFor_mem found
    obtain ⟨i,at_i⟩ := List.mem_iff_getElem?.mp member
    obtain ⟨j,owned,_⟩ := primary_owned installed unicode at_i
    have arrived := hostForRequest_visited (primary_valid installed member) host
    apply Halts.next moved
    exact halts_of_owner unicode installed servable lowered (by rw [arrived]; exact owned)

/-- If all chains of redirects end, none goes round at a primary domain. -/
theorem lowerPrimaries_of_halts (unicode : UnicodeLower lower) (installed : table.Installed (Strings.toLower lower))
    (servable : ∀ route ∈ table.routes, route.certificateStatus.served = true)
    (arrive : ∀ request, Halts (exchange (Strings.toLower lower) table.view) request) :
    LowerPrimaries (Strings.toLower lower) table.view := by
  intro route own redirects
  by_contra upper
  have direct : table.view.routeFor (Strings.toLower lower) route.primary = some route := by
    rw [Routes.routeFor,own]
  have valid := primary_valid installed (RouteTable.routeFor_mem direct)
  -- once at the primary domain the client is sent there again
  have loops (request : Request) (host : request.host = visited route.primary) :
      ∃ next, exchange (Strings.toLower lower) table.view request = some next ∧
        next.host = visited route.primary := by
    have arrived := hostForRequest_visited valid host
    have found : table.view.routeForDomain (Strings.toLower lower) (hostForRequest request) = some route := by
      rw [routeForDomain_servable servable,arrived,Routes.routeFor,Routes.get,visited_key unicode valid]
      exact direct
    exact exchange_eq_some found redirects (by rw [arrived]; exact Ne.symm upper)
  exact Halts.not_of_invariant (fun request => request.host = visited route.primary) loops
    (s := ⟨⟨"","","/","",""⟩,visited route.primary,[],"",false⟩) rfl (arrive _)

/-- A route that is found under another spelling of its primary domain is found under this domain. -/
theorem found_own (unicode : UnicodeLower lower) (installed : table.Installed (Strings.toLower lower))
    (servable : ∀ route ∈ table.routes, route.certificateStatus.served = true)
    (found : table.view.routeForDomain (Strings.toLower lower) host = some route)
    (same : visited host = visited route.primary) :
    table.view.get (Strings.toLower lower) (visited route.primary) = some route := by
  rw [routeForDomain_servable servable] at found
  have member := RouteTable.routeFor_mem found
  obtain ⟨i,at_i⟩ := List.mem_iff_getElem?.mp member
  obtain ⟨j,owned,_⟩ := primary_owned installed unicode at_i
  obtain ⟨⟨owner,at_j,_⟩,_⟩ := (RouteMap.update_eq_some_iff installed).mp owned
  have direct := RouteTable.get_of_owned owned at_j
  have key : Strings.toLower lower host = Strings.toLower lower (visited route.primary) := by
    have valid := primary_valid installed member
    rw [visited_key unicode valid]
    exact key_of_visited unicode valid same
  rw [Routes.routeFor,Routes.get,key,← Routes.get,direct] at found
  rwa [Option.some.inj found] at direct

/-- Following redirects comes to an end exactly when the primary domains are in lower case where
the redirector compares them, and then browsers are not sent on from there. Clients that write
hosts as they like are not sent on only if there are no letters to write differently. -/
theorem arrives_iff (unicode : UnicodeLower lower) (table : RouteTable K)
    (installed : table.Installed (Strings.toLower lower))
    (servable : ∀ route ∈ table.routes, route.certificateStatus.served = true) :
    (Arrives (Strings.toLower lower) table.view (fun _ => True) ↔
      CaselessPrimaries (Strings.toLower lower) table.view) ∧
    (Arrives (Strings.toLower lower) table.view (fun host => visited host = host) ↔
      LowerPrimaries (Strings.toLower lower) table.view) := by
  refine ⟨⟨?_,fun caseless => ?_⟩,fun arrives => ?_,fun lowered => ?_⟩
  · rintro ⟨arrive,stay⟩ route own redirects c member
    have direct : table.view.routeFor (Strings.toLower lower) route.primary = some route := by
      rw [Routes.routeFor,own]
    have valid := primary_valid installed (RouteTable.routeFor_mem direct)
    have lowered := lowerPrimaries_of_halts unicode installed servable arrive route own redirects
    by_contra letter
    -- the same domain in capitals is another text
    obtain ⟨same,other⟩ := capitals_other valid lowered member (by simpa using letter)
    have asked : hostForRequest ⟨⟨"","","/","",""⟩,capitals route.primary,[],"",false⟩ = capitals route.primary :=
      hostForRequest_domain valid same
    have found : table.view.routeForDomain (Strings.toLower lower) (capitals route.primary) = some route := by
      rw [routeForDomain_servable servable,Routes.routeFor,Routes.get,key_of_visited unicode valid same]
      exact direct
    rw [← asked] at found
    obtain ⟨next,moved,_⟩ := exchange_eq_some found redirects (by rw [asked]; exact other)
    rw [exchange,stay _ route found trivial (by rw [asked,same])] at moved
    cases moved
  · have lowered : LowerPrimaries (Strings.toLower lower) table.view := fun route own redirects =>
      visited_caseless (caseless route own redirects)
    refine ⟨halts unicode installed servable lowered,fun request route found _ same => ?_⟩
    have own := found_own unicode installed servable found same
    have valid := primary_valid installed
      (RouteTable.routeFor_mem ((routeForDomain_servable servable _).symm.trans found))
    by_cases redirects : route.redirectToPrimary = true
    · have here : table.view.get (Strings.toLower lower) route.primary = some route := by
        rwa [Routes.get,visited_key unicode valid] at own
      have host := eq_of_visited_caseless (caseless route here redirects) same
      exact stops_at_primary unicode lowered valid own (host.trans (lowered route here redirects).symm)
    · simp [serveHTTP,found,redirects]
  · exact lowerPrimaries_of_halts unicode installed servable arrives.1
  · refine ⟨halts unicode installed servable lowered,fun request route found written same => ?_⟩
    have valid := primary_valid installed
      (RouteTable.routeFor_mem ((routeForDomain_servable servable _).symm.trans found))
    exact stops_at_primary unicode lowered valid (found_own unicode installed servable found same)
      (written.symm.trans same)

end Termination

end DomainRedirector

namespace Sample

def redirecting (primary : String) : Route Unit :=
  { domains := [primary,"www.example.com"],named := List.cons_ne_nil _ _
    upstreams := [⟨"10.0.0.1:8080"⟩],subject := [],provider := "",redirectToPrimary := true
    certificate := none,certificateStatus := .notChecked }

def redirector (primary : String) : Proxy Unit Unit :=
  (Proxy.setRoutes asciiLower (none : Option (CertificateProvider Unit Unit Unit)) (fun _ => ())
    [redirecting primary] none ⟨(),.empty⟩).1

def secondary : Request := ⟨⟨"","","/","",""⟩,"www.example.com",[],"192.0.2.1:50000",true⟩

theorem capital_found (listed : host = "www.example.com" ∨ host = "example.com") :
    (redirector "Example.com").table.view.routeForDomain (Strings.toLower Char.toLower) host =
      some ((redirecting "Example.com").setCertificate none .notRequired) := by
  have owned : (redirector "Example.com").table.domains (Strings.toLower Char.toLower host) = some 0 := by
    rcases listed with rfl | rfl
    · decide +kernel
    · decide +kernel
  have stored : (redirector "Example.com").table.routes =
      [(redirecting "Example.com").setCertificate none .notRequired] := rfl
  simp only [Routes.routeForDomain,Routes.routeFor,Routes.get,RouteTable.view,owned,stored]
  rfl

/-- With a capital in the primary domain the redirects go on for ever, also for a client
that asks for the primary domain itself. -/
theorem capital_loops :
    (Proxy.setRoutes asciiLower (none : Option (CertificateProvider Unit Unit Unit)) (fun _ => ())
      [redirecting "Example.com"] none ⟨(),.empty⟩).2 = .ok () ∧
    ¬Halts (DomainRedirector.exchange (Strings.toLower Char.toLower) (redirector "Example.com").table.view)
      secondary ∧
    ¬Halts (DomainRedirector.exchange (Strings.toLower Char.toLower) (redirector "Example.com").table.view)
      { secondary with host := "example.com" } := by
  have loops (request : Request) (listed : request.host = "www.example.com" ∨ request.host = "example.com") :
      ∃ next, DomainRedirector.exchange (Strings.toLower Char.toLower)
          (redirector "Example.com").table.view request = some next ∧
        (next.host = "www.example.com" ∨ next.host = "example.com") := by
    have plain : hostForRequest request = request.host := by
      unfold hostForRequest
      rcases listed with host | host
      · rw [host]
        decide +kernel
      · rw [host]
        decide +kernel
    have found := capital_found listed
    rw [← plain] at found
    obtain ⟨next,moved,host⟩ := DomainRedirector.exchange_eq_some found rfl (by
      rw [plain]
      rintro eq
      rw [← eq] at listed
      exact absurd listed (by decide +kernel))
    refine ⟨next,moved,.inr (host.trans ?_)⟩
    decide +kernel
  refine ⟨rfl,?_,?_⟩
  · exact Halts.not_of_invariant _ loops (.inl rfl)
  · exact Halts.not_of_invariant _ loops (.inr rfl)

theorem lower_arrives :
    DomainRedirector.Arrives (Strings.toLower Char.toLower) (redirector "example.com").table.view
      fun host => DomainRedirector.visited host = host := by
  refine (DomainRedirector.arrives_iff .toLower (redirector "example.com").table rfl ?_).2.mpr ?_
  · decide
  · intro route own _
    have listed := RouteTable.routeFor_mem (by rw [Routes.routeFor,own])
    have only : route = (redirecting "example.com").setCertificate none .notRequired :=
      List.mem_singleton.mp listed
    rw [only]
    decide +kernel

end Sample

end Centauri
