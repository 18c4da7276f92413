import Centauri.ErrorPages
import Centauri.RouteLookup

/-! Requests on their way while the table changes. Each stage of a request looks its route up
again, so what finishes a response may not be what dispatched the request. -/
namespace Centauri

namespace RouteTable

variable {K : Type}

structure Kin (a b : RouteTable K) : Prop where
  routes : a.routes.map Route.config = b.routes.map Route.config
  domains : a.domains = b.domains
  fallback : a.fallback = b.fallback

theorem Kin.refl (table : RouteTable K) : table.Kin table := ⟨rfl,rfl,rfl⟩

theorem Kin.trans {a b c : RouteTable K} (first : a.Kin b) (second : b.Kin c) : a.Kin c :=
  ⟨first.routes.trans second.routes,first.domains.trans second.domains,first.fallback.trans second.fallback⟩

theorem Kin.deref {a b : RouteTable K} (kin : a.Kin b) (pointer : Option Nat) :
    (pointer.bind (a.routes[·]?)).map Route.config = (pointer.bind (b.routes[·]?)).map Route.config := by
  cases pointer with
  | none => rfl
  | some i =>
    rw [Option.bind_some,Option.bind_some,← List.getElem?_map,← List.getElem?_map,kin.routes]

/-- Lookups in both find the same route. -/
theorem Kin.routeFor {a b : RouteTable K} (kin : a.Kin b) (toLower : String → String) (host : String) :
    (a.view.routeFor toLower host).map Route.config = (b.view.routeFor toLower host).map Route.config := by
  have direct := kin.deref (b.domains (toLower host))
  have fallback := kin.deref b.fallback
  unfold Routes.routeFor Routes.get view
  rw [kin.domains,kin.fallback]
  dsimp only
  generalize (b.domains (toLower host)).bind (a.routes[·]?) = found at direct ⊢
  generalize (b.domains (toLower host)).bind (b.routes[·]?) = found' at direct ⊢
  cases found with
  | none =>
    obtain rfl := Option.map_eq_none_iff.mp direct.symm
    exact fallback
  | some route =>
    obtain ⟨route',rfl,_⟩ := Option.map_eq_some_iff.mp direct.symm
    exact direct

end RouteTable

/-- A call that is not accepted leaves every route where it was. -/
theorem Proxy.call_kin {S A K : Type} {toLower : String → String}
    {provider : Option (CertificateProvider S A K)} (proxy : Proxy S K) (c : ProxyCall A K)
    (refused : c.accepted = none) (enabled : (proxy.call toLower provider c).2 ≠ .crashed) :
    (proxy.call toLower provider c).1.table.Kin proxy.table := by
  cases c with
  | setRoutes answers newRoutes fallback =>
    have invalid : ¬RouteMap.Valid newRoutes := fun valid => by simp [ProxyCall.accepted,valid] at refused
    rw [call,(setRoutes_refused answers fallback proxy invalid).1]
    exact .refl _
  | checkCertificates answers =>
    rw [call] at enabled ⊢
    rcases checkCertificates_cases provider answers proxy with ⟨s,done⟩ | ⟨s,routes,config,done⟩
    · rw [done] at enabled
      exact absurd rfl enabled
    · rw [done]
      exact ⟨config,rfl,rfl⟩

inductive Stage where
  | fetching
  | finishing
  deriving DecidableEq, Repr

/-- A request, the table that `RewriteRequest` found its route in, and those that later stages
looked in. -/
structure Flight (K : Type) where
  request : Request
  dispatched : RouteTable K
  later : List (Stage × RouteTable K)

structure Traffic (S K : Type) where
  proxy : Proxy S K
  flights : List (Flight K)

inductive TrafficEvent (A K : Type) where
  | call (c : ProxyCall A K)
  | dispatch (request : Request)
  | look (i : Nat) (stage : Stage)

namespace Traffic

variable {S A K : Type} (toLower : String → String) (provider : Option (CertificateProvider S A K))

def start (s : S) : Traffic S K := ⟨⟨s,.empty⟩,[]⟩

def machine : Machine (Traffic S K) (TrafficEvent A K) where
  Enabled t
    | .call c => (t.proxy.call toLower provider c).2 ≠ .crashed
    | .dispatch _ => True
    | .look i _ => i < t.flights.length
  next t
    | .call c => { t with proxy := (t.proxy.call toLower provider c).1 }
    | .dispatch request => { t with flights := t.flights ++ [⟨request,t.proxy.table,[]⟩] }
    | .look i stage => { t with flights := t.flights.modify i fun flight =>
        { flight with later := flight.later ++ [(stage,t.proxy.table)] } }

end Traffic

/-- What a response gets whose route is looked up in the table: these header rules, and pages
by these mappings. -/
structure Follows (toLower : String → String) (rules : List Header) (mappings : List ErrorMapping)
    (routes : Routes K) (request : Request) : Prop where
  headers : ∀ h, Rewriter.rewriteHeaders toLower routes request h = Header.applyAll rules h
  pages : ∀ errors status sent, Rewriter.pageRequest toLower errors routes status request = some sent ↔
    ∃ mapping url answer, mappings.find? (fun mapping => mapping.status == status) = some mapping ∧
      errors.newRequest (mapping.target request.url) = some url ∧ errors.client = some answer ∧
      sent = ⟨url,copyForwarded request.header forwardedHeaders []⟩

theorem follows_found {routes : Routes K}
    (found : routes.routeForDomain toLower (hostForRequest request) = some route) :
    Follows toLower route.headers route.errorMappings routes request := by
  refine ⟨fun h => by rw [Rewriter.rewriteHeaders,found],fun errors status sent => ?_⟩
  rw [Rewriter.pageRequest_eq_some,found]
  constructor
  · rintro ⟨_,mapping,url,answer,⟨⟩,rest⟩
    exact ⟨mapping,url,answer,rest⟩
  · rintro ⟨mapping,url,answer,rest⟩
    exact ⟨route,mapping,url,answer,rfl,rest⟩

theorem follows_missing {routes : Routes K}
    (missing : routes.routeForDomain toLower (hostForRequest request) = none) :
    Follows toLower [] [] routes request := by
  refine ⟨fun h => by rw [Rewriter.rewriteHeaders,missing]; rfl,fun errors status sent => ?_⟩
  rw [Rewriter.pageRequest_eq_some,missing]
  simp

def FollowsFound (toLower : String → String) (routes : Routes K) (request : Request) : Prop :=
  let found := routes.routeForDomain toLower (hostForRequest request)
  Follows toLower (found.elim [] Route.headers) (found.elim [] Route.errorMappings) routes request

theorem followsFound (toLower : String → String) (routes : Routes K) (request : Request) :
    FollowsFound toLower routes request := by
  unfold FollowsFound
  cases found : routes.routeForDomain toLower (hostForRequest request) with
  | none => exact follows_missing found
  | some route => exact follows_found found

def Flight.Loyal (toLower : String → String) (flight : Flight K) : Prop :=
  ∀ route, flight.dispatched.view.routeForDomain toLower (hostForRequest flight.request) = some route →
    route.upstreams ≠ [] → ∀ stage table, (stage,table) ∈ flight.later →
    Follows toLower route.headers route.errorMappings table.view flight.request

def FollowsServed (toLower : String → String) (route served : Route K) (routes : Routes K)
    (request : Request) : Prop :=
  if served.certificateStatus.served then Follows toLower route.headers route.errorMappings routes request
  else Follows toLower [] [] routes request

/-- Lookups in a table of the same routes find the route again, unless it has lost its
certificate. -/
theorem RouteTable.Kin.follows {a b : RouteTable K} (kin : a.Kin b)
    (found : b.view.routeForDomain toLower (hostForRequest request) = some route) :
    ∃ served, a.view.routeFor toLower (hostForRequest request) = some served ∧
      served.config = route.config ∧ FollowsServed toLower route served a.view request := by
  have before : b.view.routeFor toLower (hostForRequest request) = some route :=
    (Routes.routeForDomain_eq_some.mp found).1
  have same := kin.routeFor toLower (hostForRequest request)
  rw [before] at same
  obtain ⟨served,after,config⟩ := Option.map_eq_some_iff.mp same
  refine ⟨served,after,config,?_⟩
  obtain ⟨_,headers,mappings⟩ := Route.of_config config
  unfold FollowsServed
  by_cases standing : served.certificateStatus.served = true
  · rw [if_pos standing,← headers,← mappings]
    exact follows_found (Routes.routeForDomain_eq_some.mpr ⟨after,standing⟩)
  · rw [if_neg standing]
    apply follows_missing
    rw [Option.eq_none_iff_forall_ne_some]
    intro other again
    obtain ⟨same,held⟩ := Routes.routeForDomain_eq_some.mp again
    cases after.symm.trans same
    exact standing held

namespace Traffic

variable {S A K : Type} {toLower : String → String} {provider : Option (CertificateProvider S A K)}

/-- A request in flight, where the table and those it has met so far are of one kind. -/
structure Steady (Good : RouteTable K → Prop) (table : RouteTable K) (i : Nat) (request : Request)
    (t : Traffic S K) : Prop where
  current : Good t.proxy.table
  flight : ∃ flight, t.flights[i]? = some flight ∧ flight.request = request ∧ flight.dispatched = table ∧
    ∀ entry ∈ flight.later, Good entry.2

theorem Steady.next {Good : RouteTable K → Prop} (steady : Steady Good table i request t)
    (kept : ∀ c, event = .call c → Good (t.proxy.call toLower provider c).1.table) :
    Steady Good table i request ((machine toLower provider).next t event) := by
  obtain ⟨current,flight,at_i,requested,dispatched,later⟩ := steady
  cases event with
  | call c => exact ⟨kept c rfl,flight,at_i,requested,dispatched,later⟩
  | dispatch other =>
    refine ⟨current,flight,?_,requested,dispatched,later⟩
    exact List.getElem?_append_left (List.getElem?_eq_some_iff.mp at_i).1 ▸ at_i
  | look j stage =>
    by_cases same : j = i
    · subst same
      refine ⟨current,{ flight with later := flight.later ++ [(stage,t.proxy.table)] },?_,requested,dispatched,?_⟩
      · simp [machine,at_i]
      · intro entry member
        rcases List.mem_append.mp member with earlier | last
        · exact later entry earlier
        · rw [List.mem_singleton.mp last]
          exact current
    · refine ⟨current,flight,?_,requested,dispatched,later⟩
      simp [machine,same,at_i]

/-- A request is in flight from its dispatch on. -/
theorem steady_dispatch (Good : RouteTable K → Prop) (request : Request) (t : Traffic S K)
    (current : Good t.proxy.table) : Steady Good t.proxy.table t.flights.length request
      ((machine toLower provider).next t (.dispatch request)) :=
  ⟨current,⟨request,t.proxy.table,[]⟩,by simp [machine],rfl,rfl,by simp⟩

def Looked (toLower : String → String) (provider : Option (CertificateProvider S A K)) (first : Traffic S K)
    (i : Nat) (past : List (TrafficEvent A K)) (stage : Stage) (table : RouteTable K) : Prop :=
  ∃ us vs now, past = us ++ .look i stage :: vs ∧ (machine toLower provider).Run first us now ∧ now.proxy.table = table

theorem Looked.snoc (looked : Looked toLower provider first i past stage table) (event : TrafficEvent A K) :
    Looked toLower provider first i (past ++ [event]) stage table := by
  obtain ⟨us,vs,now,rfl,run,same⟩ := looked
  exact ⟨us,vs ++ [event],now,by simp,run,same⟩

/-- Every table in the record of a request is one that a stage of it looked at. -/
theorem run_looked {first final : Traffic S K} (run : (machine toLower provider).Run first middle final)
    (fresh : first.flights[i]? = some ⟨request,table,[]⟩) :
    ∃ flight, final.flights[i]? = some flight ∧
      ∀ stage table, (stage,table) ∈ flight.later → Looked toLower provider first i middle stage table := by
  have record := run.history (fun past t => (machine toLower provider).Run first past t ∧
    ∃ flight, t.flights[i]? = some flight ∧
      ∀ stage table, (stage,table) ∈ flight.later → Looked toLower provider first i past stage table) ?_
    ⟨.nil,_,fresh,by simp⟩
  · exact record.2
  rintro past t event ⟨reached,flight,at_i,later⟩ enabled
  refine ⟨reached.snoc enabled,?_⟩
  have earlier (stage : Stage) (table : RouteTable K) (member : (stage,table) ∈ flight.later) :
      Looked toLower provider first i (past ++ [event]) stage table := (later stage table member).snoc event
  cases event with
  | call c => exact ⟨flight,at_i,earlier⟩
  | dispatch other =>
    exact ⟨flight,List.getElem?_append_left (List.getElem?_eq_some_iff.mp at_i).1 ▸ at_i,earlier⟩
  | look j stage =>
    by_cases same : j = i
    · subst same
      refine ⟨{ flight with later := flight.later ++ [(stage,t.proxy.table)] },by simp [machine,at_i],?_⟩
      intro stage' table' member
      rcases List.mem_append.mp member with old | last
      · exact earlier stage' table' old
      · obtain ⟨rfl,rfl⟩ := Prod.mk.inj (List.mem_singleton.mp last)
        exact ⟨past,[],t,rfl,reached,rfl⟩
    · exact ⟨flight,by simp [machine,same,at_i],earlier⟩

/-- Every stage follows the route that is found in the table in force when it looks; that is the
dispatching route as long as no new list has been accepted since, and it is still served. -/
theorem run_follows {S A K : Type} {toLower : String → String}
    {provider : Option (CertificateProvider S A K)} {s : S} {early middle : List (TrafficEvent A K)}
    {request : Request} {final : Traffic S K}
    (run : (machine toLower provider).Run (start s) (early ++ .dispatch request :: middle) final) :
    ∃ before flight, (machine toLower provider).Run (start s) early before ∧
      final.flights[before.flights.length]? = some flight ∧ flight.request = request ∧
      flight.dispatched = before.proxy.table ∧
      (∀ stage table, (stage,table) ∈ flight.later → ∃ us vs now,
        middle = us ++ .look before.flights.length stage :: vs ∧
        (machine toLower provider).Run (start s) (early ++ .dispatch request :: us) now ∧
        now.proxy.table = table ∧ FollowsFound toLower now.proxy.table.view request) ∧
      ((∀ c, .call c ∈ middle → c.accepted = none) →
        ∀ route, before.proxy.table.view.routeForDomain toLower (hostForRequest request) = some route →
        ∀ stage table, (stage,table) ∈ flight.later →
        ∃ served, table.view.routeFor toLower (hostForRequest request) = some served ∧
          served.config = route.config ∧ FollowsServed toLower route served table.view request) := by
  obtain ⟨before,earlier,sent,rest⟩ := run.split
  have flying := rest.invariant (Steady (fun _ => True) before.proxy.table before.flights.length request)
    (fun t event steady _ => steady.next fun _ _ => trivial) (steady_dispatch _ request before trivial)
  obtain ⟨flight,at_i,requested,dispatched,_⟩ := flying.flight
  have fresh : ((machine toLower provider).next before (.dispatch request)).flights[before.flights.length]? =
      some ⟨request,before.proxy.table,[]⟩ := by simp [machine]
  obtain ⟨flight',at_i',looked⟩ := run_looked rest fresh
  obtain rfl : flight = flight' := Option.some.inj (at_i.symm.trans at_i')
  refine ⟨before,flight,earlier,at_i,requested,dispatched,fun stage table member => ?_,?_⟩
  · obtain ⟨us,vs,now,parts,reached,same⟩ := looked stage table member
    exact ⟨us,vs,now,parts,earlier.append (.cons sent reached),same,followsFound _ _ _⟩
  intro unchanged route found stage table member
  have steady := rest.invariant_on
    (Steady (·.Kin before.proxy.table) before.proxy.table before.flights.length request)
    (fun t event member steady enabled => steady.next fun c eq => by
      subst eq
      exact (t.proxy.call_kin c (unchanged c member) enabled).trans steady.current)
    (steady_dispatch _ request before (.refl _))
  obtain ⟨flight',at_i',_,_,later⟩ := steady.flight
  obtain rfl : flight = flight' := Option.some.inj (at_i.symm.trans at_i')
  exact (later (stage,table) member).follows found

end Traffic

namespace Sample

def discreetRoute : Route Unit :=
  { plainRoute .notChecked with headers := [⟨"Server","",.delete⟩] }

def overtaken : List (TrafficEvent Unit Unit) :=
  [.call (.setRoutes (fun _ => ()) [discreetRoute] none),.dispatch honest,
    .call (.setRoutes (fun _ => ()) [plainRoute .notChecked] none),.look 0 .finishing]

def tableOf (route : Route Unit) : RouteTable Unit :=
  ⟨[route.setCertificate none .notRequired],Function.update (fun _ => none) "example.com" (some 0),none⟩

theorem setRoutes_tableOf (route : Route Unit) (domain : route.domains = ["example.com"])
    (certificate : route.certificate = none) (proxy : Proxy Unit Unit) :
    Proxy.setRoutes (Strings.toLower Char.toLower) (none : Option (CertificateProvider Unit Unit Unit))
      (fun _ => ()) [route] none proxy = (⟨(),tableOf route⟩,.ok ()) := by
  have valid : isDomainName "example.com" = true := by decide +kernel
  have lower : Strings.toLower Char.toLower "example.com" = "example.com" := by decide +kernel
  simp [Proxy.setRoutes,forRoutes,CertificateProvider.loadCertificate,RouteMap.update,RouteMap.addRoutes,
    RouteMap.addDomains,Route.setCertificate,domain,certificate,valid,lower,tableOf]

theorem tableOf_found (route : Route Unit) :
    (tableOf route).view.routeForDomain (Strings.toLower Char.toLower) (hostForRequest honest) =
      some (route.setCertificate none .notRequired) := by
  have host : Strings.toLower Char.toLower (hostForRequest honest) = "example.com" := by decide +kernel
  simp [Routes.routeForDomain,Routes.routeFor,Routes.get,RouteTable.view,tableOf,host,Route.setCertificate,
    CertificateStatus.value]

theorem overtaken_disloyal : ∃ final flight,
    (Traffic.machine (Strings.toLower Char.toLower) (none : Option (CertificateProvider Unit Unit Unit))).Run
      (Traffic.start ()) overtaken final ∧ final.flights[0]? = some flight ∧
    ¬flight.Loyal (Strings.toLower Char.toLower) := by
  have first := setRoutes_tableOf discreetRoute rfl rfl ⟨(),.empty⟩
  have second := setRoutes_tableOf (plainRoute .notChecked) rfl rfl ⟨(),tableOf discreetRoute⟩
  let flight : Flight Unit :=
    ⟨honest,tableOf discreetRoute,[(.finishing,tableOf (plainRoute .notChecked))]⟩
  refine ⟨⟨⟨(),tableOf (plainRoute .notChecked)⟩,[flight]⟩,flight,?_,rfl,fun loyal => ?_⟩
  · refine .cons ?_ (.cons trivial (.cons ?_ (.cons ?_ ?_)))
    all_goals simp only [Traffic.machine,Traffic.start,Proxy.call,first,second,List.nil_append]
    · simp
    · simp
    · simp
    · exact .nil
  · have follows := loyal _ (tableOf_found discreetRoute) (by simp [discreetRoute,plainRoute,Route.setCertificate])
      .finishing _ List.mem_cons_self
    have finished := follows.headers [("Server",["centauri"])]
    rw [(follows_found (tableOf_found (plainRoute .notChecked))).headers] at finished
    exact absurd finished (by decide +kernel)

/-- Certificates are checked while the request waits: its rules stay. -/
theorem checked_follows : ∃ (before : Traffic Unit Unit) (flight : Flight Unit),
    flight.request = honest ∧ flight.dispatched = before.proxy.table ∧
    ∀ route, before.proxy.table.view.routeForDomain (Strings.toLower Char.toLower) (hostForRequest honest) =
        some route →
      ∀ (stage : Stage) (table : RouteTable Unit), (stage,table) ∈ flight.later →
      ∃ served, table.view.routeFor (Strings.toLower Char.toLower) (hostForRequest honest) = some served ∧
        served.config = route.config ∧
        FollowsServed (Strings.toLower Char.toLower) route served table.view honest := by
  have first := setRoutes_tableOf discreetRoute rfl rfl ⟨(),.empty⟩
  obtain ⟨final,run⟩ : ∃ final, (Traffic.machine (Strings.toLower Char.toLower)
      (none : Option (CertificateProvider Unit Unit Unit))).Run (Traffic.start ())
      ([.call (.setRoutes (fun _ => ()) [discreetRoute] none)] ++ .dispatch honest ::
        [.call (.checkCertificates fun _ => ()),.look 0 .finishing]) final := by
    refine ⟨_,.cons ?_ (.cons trivial (.cons ?_ (.cons ?_ .nil)))⟩
    all_goals simp [Traffic.machine,Traffic.start,Proxy.call,first,Proxy.checkCertificates,forRoutes,tableOf,
      CertificateProvider.checkCertificate]
  obtain ⟨before,flight,_,_,requested,dispatched,_,steady⟩ := Traffic.run_follows run
  exact ⟨before,flight,requested,dispatched,steady (by simp [ProxyCall.accepted])⟩

end Sample

end Centauri
