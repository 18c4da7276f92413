import Centauri.ErrorPages
import Centauri.Strings

/-! What `httputil.ReverseProxy` does to a request before `RewriteRequest` gets it, the request
it hands to the error handler, and what an error upstream learns from that. -/
namespace Centauri

/-- What `textproto.TrimString` trims. -/
def isBlank (c : Char) : Bool := c == ' ' || c == '\t' || c == '\n' || c == '\r'

def ReverseProxy.trim (space : Char → Bool) (s : String) : String :=
  String.ofList ((s.toList.dropWhile space).reverse.dropWhile space).reverse

namespace HttpHeader

def values (h : HttpHeader) (key : String) : List String := (h.lookup key).getD []

/-- The elements of a comma-separated value. Empty ones do not count. -/
def elements (value : String) : List String :=
  ((Strings.split ',' value).map (ReverseProxy.trim isBlank)).filter (· != "")

def connectionListed (h : HttpHeader) : List String := (h.values "Connection").flatMap elements

end HttpHeader

namespace ReverseProxy

/-- `httpguts.HeaderValuesContainsToken`. -/
def headerValuesContainsToken (values : List String) (token : String) : Bool :=
  values.any fun value => (Strings.split ',' value).any fun part =>
    Strings.toLower Char.toLower (trim (fun c => c == ' ' || c == '\t') part) ==
      Strings.toLower Char.toLower token

def upgradeType (h : HttpHeader) : String :=
  if headerValuesContainsToken ((h.lookup "Connection").getD []) "Upgrade" then h.get "Upgrade" else ""

/-- `ascii.IsPrint`: a character beyond ASCII has bytes beyond it. -/
def isPrint (s : String) : Bool := s.toList.all fun c => 0x20 ≤ c.toNat && c.toNat ≤ 0x7E

def hopHeaders : List String :=
  ["Connection","Proxy-Connection","Keep-Alive","Proxy-Authenticate","Proxy-Authorization","Te","Trailer",
    "Transfer-Encoding","Upgrade"]

/-- The names that a Connection header lists, then the usual ones. -/
def removeHopByHopHeaders (h : HttpHeader) : HttpHeader :=
  (h.connectionListed ++ hopHeaders).foldl (fun h name => HttpHeader.del name h) h

def clientForwarding : List String := ["Forwarded","X-Forwarded-For","X-Forwarded-Host","X-Forwarded-Proto"]

def outgoing (cleanQuery : String → String) (request : Request) : Request :=
  let upgrade := upgradeType request.header
  let h := removeHopByHopHeaders request.header
  let h := if headerValuesContainsToken ((request.header.lookup "Te").getD []) "trailers" then
    HttpHeader.set "Te" "trailers" h else h
  let h := if upgrade != "" then HttpHeader.set "Upgrade" upgrade (HttpHeader.set "Connection" "Upgrade" h) else h
  { request with
    url := { request.url with rawQuery := cleanQuery request.url.rawQuery }
    header := clientForwarding.foldl (fun h name => HttpHeader.del name h) h }

/-- The request to switch to a protocol with an unprintable name is not even rewritten. -/
def refused (request : Request) : Bool := !isPrint (upgradeType request.header)

end ReverseProxy

namespace Rewriter

/-- Where the pages come from, and what comes with a frontend. -/
structure Frontend (K : Type) where
  toLower : String → String
  routes : Routes K
  errors : ErrorClient
  downstreams : List Net.IPNet
  tailscale : Option (String → Except String UserProfile)
  cleanQuery : String → String

namespace Frontend

variable {K : Type} (f : Frontend K)

def outbound (intN : (n : Nat) → 0 < n → Fin n) (request : Request) : Request :=
  rewriteRequest f.toLower f.routes (decorators f.downstreams f.tailscale) intN request
    (ReverseProxy.outgoing f.cleanQuery request)

def failed (intN : (n : Nat) → 0 < n → Fin n) (request : Request) : Request :=
  if ReverseProxy.refused request then request else f.outbound intN request

def pageRequest (intN : (n : Nat) → 0 < n → Fin n) (request : Request) : Option PageRequest :=
  Rewriter.pageRequest f.toLower f.errors f.routes 502 (f.failed intN request)

/-- The error upstream learns nothing that the client made up about its way, and what it
learns is what regular upstreams do. -/
structure Vetted (intN : (n : Nat) → 0 < n → Fin n) (request : Request) : Prop where
  independent : ∀ intN' names other,
    (∀ name ∈ names, "X-Forwarded-".toList <+: (canonicalHeaderKey name).toList) →
    SameBut names request other → f.pageRequest intN' other = f.pageRequest intN request
  informed : ∀ sent, f.pageRequest intN request = some sent →
    ∀ name ∈ forwardedHeaders, sent.header.get name = HttpHeader.get name (f.outbound intN request).header

def Unmapped (request : Request) : Prop :=
  ∀ route mapping, f.routes.routeForDomain f.toLower (hostForRequest request) = some route →
    route.errorMappingForStatus 502 = some mapping → f.errors.client = none ∨
      f.errors.newRequest (mapping.target request.url) = none

variable {f}

structure Framed (a b : Request) : Prop where
  url : a.url = b.url
  host : a.host = b.host
  remoteAddr : a.remoteAddr = b.remoteAddr
  tls : a.tls = b.tls

theorem Framed.trans (first : Framed a b) (second : Framed b c) : Framed a c :=
  ⟨first.url.trans second.url,first.host.trans second.host,first.remoteAddr.trans second.remoteAddr,
    first.tls.trans second.tls⟩

theorem standard_framed (downstreams : List Net.IPNet) (inbound out : Request) :
    Framed (standard downstreams inbound out) out := by
  have forwarded : Framed (xForwardedForDecorator downstreams inbound out) out := by
    unfold xForwardedForDecorator
    exact ⟨rfl,rfl,rfl,rfl⟩
  have banned (out : Request) : Framed (bannedHeaderDecorator inbound out) out := ⟨rfl,rfl,rfl,rfl⟩
  have userAgent (out : Request) : Framed (userAgentDecorator inbound out) out := by
    unfold userAgentDecorator
    split <;> exact ⟨rfl,rfl,rfl,rfl⟩
  exact (userAgent _).trans ((banned _).trans forwarded)

/-- The decorators change nothing but headers. -/
theorem decorators_framed (downstreams : List Net.IPNet)
    (tailscale : Option (String → Except String UserProfile)) (inbound out : Request) :
    Framed ((decorators downstreams tailscale).foldl (fun out decorate => decorate inbound out) out) out := by
  have common := standard_framed downstreams inbound out
  rw [decorators_foldl]
  cases tailscale with
  | none =>
    rw [Option.elim_none]
    exact common
  | some whoIs =>
    have identified (out : Request) : Framed (tailscaleHeaderDecorator whoIs inbound out) out := by
      unfold tailscaleHeaderDecorator
      split <;> exact ⟨rfl,rfl,rfl,rfl⟩
    rw [Option.elim_some]
    exact (identified _).trans common

/-- The rewriter leaves the host and what is requested of it. -/
theorem outbound_frame (intN : (n : Nat) → 0 < n → Fin n) (request : Request) :
    (f.outbound intN request).host = request.host ∧
    (f.outbound intN request).url.path = request.url.path ∧
    (f.outbound intN request).url.rawPath = request.url.rawPath ∧
    (f.outbound intN request).url.rawQuery = f.cleanQuery request.url.rawQuery := by
  have framed := decorators_framed f.downstreams f.tailscale request
    (ReverseProxy.outgoing f.cleanQuery request)
  unfold outbound rewriteRequest
  split
  · exact ⟨rfl,rfl,rfl,rfl⟩
  split
  · exact ⟨rfl,rfl,rfl,rfl⟩
  · dsimp only
    rw [framed.host,framed.url]
    exact ⟨rfl,rfl,rfl,rfl⟩

def own (request : Request) (name : String) : String :=
  if name = "X-Forwarded-For" then remoteIP request
  else if name = "X-Forwarded-Host" then request.host
  else if request.tls then "https" else "http"

/-- The names are canonical, no decorator but the one for them concerns them, and the client's
own are removed. -/
theorem forwardedHeaders_names : ∀ name ∈ forwardedHeaders, canonicalHeaderKey name = name ∧
    name ∉ bannedHeaders.map canonicalHeaderKey ∧ name ≠ "User-Agent" ∧
    name ∈ ReverseProxy.clientForwarding.map canonicalHeaderKey := by decide +kernel

/-- To an untrusted client's request the proxy adds its own view, or nothing where the
request has no route. -/
theorem outbound_forwarded (intN : (n : Nat) → 0 < n → Fin n)
    (untrusted : trusted f.downstreams (remoteIP request) = false) (listed : name ∈ forwardedHeaders) :
    (f.outbound intN request).header.lookup name = some [own request name] ∧
        Routed f.toLower f.routes request ∨
      (f.outbound intN request).header.lookup name = none ∧ ¬Routed f.toLower f.routes request := by
  have names := forwardedHeaders_names
  by_cases routed : Routed f.toLower f.routes request
  · refine .inl ⟨?_,routed⟩
    have address : remoteIP (ReverseProxy.outgoing f.cleanQuery request) = remoteIP request := rfl
    have host : (ReverseProxy.outgoing f.cleanQuery request).host = request.host := rfl
    have tls : (ReverseProxy.outgoing f.cleanQuery request).tls = request.tls := rfl
    rw [outbound,rewriteRequest_header routed,decorators_lookup f.tailscale (names name listed).2.1
      (names name listed).2.2.1]
    simp only [xForwardedForDecorator,lookup_forward,address,host,tls,untrusted,(names "X-Forwarded-For" (by decide)).1,
      (names "X-Forwarded-Host" (by decide)).1,(names "X-Forwarded-Proto" (by decide)).1]
    simp only [forwardedHeaders,List.mem_cons,List.not_mem_nil,or_false] at listed
    rcases listed with rfl | rfl | rfl
    · simp [own]
    · simp [own]
    · simp [own]
  · refine .inr ⟨?_,routed⟩
    rw [outbound,rewriteRequest_unrouted routed]
    exact (HttpHeader.lookup_delAll ReverseProxy.clientForwarding name _).trans
      (if_pos (names name listed).2.2.2)

/-- None of the names is of those by which a request is refused. -/
theorem refused_congr (same : SameBut names request other)
    (forwarding : ∀ name ∈ names, "X-Forwarded-".toList <+: (canonicalHeaderKey name).toList) :
    ReverseProxy.refused other = ReverseProxy.refused request := by
  have kept (key : String) (plain : ¬"X-Forwarded-".toList <+: key.toList) :
      List.lookup key other.header = List.lookup key request.header := by
    refine (same.header key fun listed => ?_).symm
    obtain ⟨name,member,rfl⟩ := List.mem_map.mp listed
    exact plain (forwarding name member)
  have connection := kept "Connection" (by decide +kernel)
  have upgrade := kept (canonicalHeaderKey "Upgrade") (by decide +kernel)
  unfold ReverseProxy.refused ReverseProxy.upgradeType HttpHeader.get
  rw [connection,upgrade]

/-- Regular upstreams are told the same of two requests that differ in what the client says. -/
theorem outbound_congr (intN intN' : (n : Nat) → 0 < n → Fin n)
    (untrusted : trusted f.downstreams (remoteIP request) = false) (same : SameBut names request other)
    (listed : name ∈ forwardedHeaders) :
    HttpHeader.get name (f.outbound intN' other).header = HttpHeader.get name (f.outbound intN request).header := by
  have untrusted' : trusted f.downstreams (remoteIP other) = false := same.remoteIP ▸ untrusted
  have routed : Routed f.toLower f.routes other ↔ Routed f.toLower f.routes request := by
    unfold Routed hostForRequest
    rw [same.host]
  have view : own other name = own request name := by
    unfold own
    rw [same.remoteIP,same.host,same.tls]
  apply HttpHeader.get_congr
  rw [(forwardedHeaders_names name listed).1]
  rcases outbound_forwarded intN untrusted listed with ⟨sent,here⟩ | ⟨sent,here⟩
  · rcases outbound_forwarded intN' untrusted' listed with ⟨sent',_⟩ | ⟨_,there⟩
    · rw [sent,sent',view]
    · exact absurd (routed.mpr here) there
  · rcases outbound_forwarded intN' untrusted' listed with ⟨_,there⟩ | ⟨sent',_⟩
    · exact absurd (routed.mp there) here
    · rw [sent,sent']

theorem vetted_of_printable (intN : (n : Nat) → 0 < n → Fin n)
    (untrusted : trusted f.downstreams (remoteIP request) = false)
    (printable : ReverseProxy.refused request = false) : f.Vetted intN request := by
  constructor
  · intro intN' names other forwarding same
    have printable' : ReverseProxy.refused other = false := (refused_congr same forwarding).trans printable
    obtain ⟨host,path,rawPath,rawQuery⟩ := outbound_frame (f := f) intN request
    obtain ⟨host',path',rawPath',rawQuery'⟩ := outbound_frame (f := f) intN' other
    rw [pageRequest,pageRequest,failed,failed,printable,printable']
    simp only [Bool.false_eq_true,if_false]
    refine pageRequest_congr ?_ ?_ ?_ ?_ fun name listed => ?_
    · rw [host,host',same.host]
    · rw [path,path',same.url]
    · rw [rawPath,rawPath',same.url]
    · rw [rawQuery,rawQuery',same.url]
    · exact outbound_congr intN intN' untrusted same listed
  · intro sent requested name listed
    rw [pageRequest,failed,printable] at requested
    obtain ⟨_,_,_,_,_,_,_,_,rfl⟩ := pageRequest_eq_some.mp requested
    exact get_copyForwarded listed rfl

/-- Where a refused request gets a page, the error upstream is told what the client said. -/
theorem not_vetted_of_refused (intN : (n : Nat) → 0 < n → Fin n)
    (refused : ReverseProxy.refused request = true) (mapped : ¬f.Unmapped request) :
    ¬f.Vetted intN request := by
  intro vetted
  simp only [Unmapped,not_forall,not_or] at mapped
  obtain ⟨route,mapping,found,maps,present,makes⟩ := mapped
  obtain ⟨answer,present⟩ := Option.ne_none_iff_exists'.mp present
  obtain ⟨url,made⟩ := Option.ne_none_iff_exists'.mp makes
  let claimed := HttpHeader.get "X-Forwarded-For" request.header ++ "x"
  let other : Request := { request with header := HttpHeader.set "X-Forwarded-For" claimed request.header }
  have same : SameBut ["X-Forwarded-For"] request other := by
    refine ⟨rfl,rfl,rfl,rfl,fun key unlisted => ?_⟩
    rw [HttpHeader.lookup_set,if_neg (by simpa using unlisted)]
  have forwarding : ∀ name ∈ ["X-Forwarded-For"],
      "X-Forwarded-".toList <+: (canonicalHeaderKey name).toList := by decide +kernel
  have refused' : ReverseProxy.refused other = true := (refused_congr same forwarding).trans refused
  have sent : f.pageRequest intN request =
      some ⟨url,copyForwarded request.header forwardedHeaders []⟩ := by
    rw [pageRequest,failed,if_pos refused]
    exact pageRequest_eq_some.mpr ⟨route,mapping,url,answer,found,maps,made,present,rfl⟩
  have sent' : f.pageRequest intN other = some ⟨url,copyForwarded other.header forwardedHeaders []⟩ := by
    rw [pageRequest,failed,if_pos refused']
    exact pageRequest_eq_some.mpr ⟨route,mapping,url,answer,found,maps,made,present,rfl⟩
  have equal := vetted.independent intN _ other forwarding same
  rw [sent,sent',Option.some.injEq,PageRequest.mk.injEq] at equal
  have value := congrArg (HttpHeader.get "X-Forwarded-For") equal.2
  have listed : "X-Forwarded-For" ∈ forwardedHeaders := by decide
  rw [get_copyForwarded listed rfl,get_copyForwarded listed rfl,HttpHeader.get_set,if_pos rfl] at value
  have lengths := congrArg String.length value
  simp [claimed] at lengths

theorem vetted_of_unmapped (intN : (n : Nat) → 0 < n → Fin n)
    (refused : ReverseProxy.refused request = true) (unmapped : f.Unmapped request) :
    f.Vetted intN request := by
  have unsent (intN : (n : Nat) → 0 < n → Fin n) (other : Request) (host : other.host = request.host)
      (url : other.url = request.url) (refused : ReverseProxy.refused other = true) :
      f.pageRequest intN other = none := by
    rw [pageRequest,failed,if_pos refused,Option.eq_none_iff_forall_ne_some]
    intro sent requested
    obtain ⟨route,mapping,_,_,found,maps,made,present,_⟩ := pageRequest_eq_some.mp requested
    unfold hostForRequest at found
    rw [host] at found
    rw [url] at made
    rcases unmapped route mapping found maps with absent | unmade
    · cases absent.symm.trans present
    · cases unmade.symm.trans made
  constructor
  · intro intN' names other forwarding same
    rw [unsent intN' other same.host.symm same.url.symm ((refused_congr same forwarding).trans refused),
      unsent intN request rfl rfl refused]
  · intro sent requested
    rw [unsent intN request rfl rfl refused] at requested
    cases requested

/-- An untrusted client has no say in what the error upstream learns of it exactly where its
request is rewritten first, or no page is asked for. -/
theorem vetted_iff {K : Type} (f : Frontend K) (intN : (n : Nat) → 0 < n → Fin n) (request : Request)
    (untrusted : trusted f.downstreams (remoteIP request) = false) :
    f.Vetted intN request ↔
      ReverseProxy.isPrint (ReverseProxy.upgradeType request.header) = true ∨ f.Unmapped request := by
  have printable : ReverseProxy.isPrint (ReverseProxy.upgradeType request.header) = true ↔
      ReverseProxy.refused request = false := by simp [ReverseProxy.refused]
  rw [printable]
  constructor
  · intro vetted
    by_cases refused : ReverseProxy.refused request = true
    · by_contra neither
      exact not_vetted_of_refused intN refused (fun unmapped => neither (.inr unmapped)) vetted
    · exact .inl (Bool.eq_false_iff.mpr refused)
  · rintro (rewritten | unmapped)
    · exact vetted_of_printable intN untrusted rewritten
    · by_cases refused : ReverseProxy.refused request = true
      · exact vetted_of_unmapped intN refused unmapped
      · exact vetted_of_printable intN untrusted (Bool.eq_false_iff.mpr refused)

end Frontend

end Rewriter

namespace Sample

def mappedRoute : Route Unit :=
  { plainRoute .notRequired with errorMappings := [⟨502,"pages:8080","",""⟩] }

def mappedRoutes : Routes Unit where
  domains domain := if domain = "example.com" then some mappedRoute else none
  fallback := none

def mappedFrontend : Rewriter.Frontend Unit where
  toLower := asciiLower
  routes := mappedRoutes
  errors := ⟨some,some fun _ => none,by rintro _ _ _ ⟨⟩ answered; cases answered⟩
  downstreams := [⟨[10,0,0,0],[255,0,0,0]⟩]
  tailscale := none
  cleanQuery := id

def accented : Request :=
  { spoofed with header := [("Connection",["Upgrade"]),("Upgrade",["é"]),("X-Forwarded-For",["10.0.0.1"])] }

theorem accented_unvetted :
    trusted mappedFrontend.downstreams (remoteIP accented) = false ∧
      ¬mappedFrontend.Vetted (fun _ some => ⟨0,some⟩) accented := by
  have untrusted : trusted mappedFrontend.downstreams (remoteIP accented) = false := by decide +kernel
  have refused : ReverseProxy.refused accented = true := by decide +kernel
  have found : mappedRoutes.routeForDomain asciiLower (hostForRequest accented) = some mappedRoute := by
    have host : hostForRequest accented = "example.com" := by decide +kernel
    have lower : asciiLower "example.com" = "example.com" := by decide
    rw [host,Routes.routeForDomain,Routes.routeFor,Routes.get,lower]
    rfl
  refine ⟨untrusted,Rewriter.Frontend.not_vetted_of_refused _ refused fun unmapped => ?_⟩
  rcases unmapped mappedRoute _ found rfl with absent | unmade
  · cases absent
  · cases unmade

/-- Without the accent it is rewritten first. -/
theorem spoofed_vetted : mappedFrontend.Vetted (fun _ some => ⟨0,some⟩) spoofed :=
  (Rewriter.Frontend.vetted_iff mappedFrontend _ spoofed (by decide +kernel)).mpr (.inl (by decide +kernel))

end Sample

end Centauri
