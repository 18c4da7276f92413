import Centauri.ProxyManager

/-! Where a request is sent. `RewriteRequest` works on the clone of the inbound request
that the reverse proxy makes, and the transport then connects to the clone's URL. -/
namespace Centauri

/-- The path is unescaped; `rawPath` is empty unless it was written in an unusual way. -/
structure Url where
  scheme : String
  host : String
  path : String
  rawPath : String
  rawQuery : String
  deriving DecidableEq, Repr

/-- An absolute-form target leaves a scheme and a host in the URL; `host` is the target's
host then, and the Host header otherwise. `tls` says whether the connection is encrypted. -/
structure Request where
  url : Url
  host : String
  header : List (String × List String)
  remoteAddr : String
  tls : Bool
  deriving DecidableEq, Repr

/-- Decorators see the inbound request and change the outbound one. -/
abbrev Decorator := Request → Request → Request

namespace Net

def lastIndex (c : Char) (s : List Char) : Option Nat :=
  (s.reverse.idxOf? c).map fun k => s.length - 1 - k

/-- The host of `net.SplitHostPort` given the position of the last colon, with the
positions before which no opening or closing bracket can stand. -/
def hostPart (s : List Char) (i : Nat) : Except String (List Char × Nat × Nat) :=
  if s.head? = some '[' then
    match s.idxOf? ']' with
    | none => .error "missing ']' in address"
    | some close =>
      if close + 1 = s.length then .error "missing port in address"
      else if close + 1 = i then .ok ((s.take close).drop 1,1,close + 1)
      else if s[close + 1]? = some ':' then .error "too many colons in address"
      else .error "missing port in address"
  else if ':' ∈ s.take i then .error "too many colons in address"
  else .ok (s.take i,0,0)

def splitHostPort (hostport : String) : Except String (String × String) :=
  let s := hostport.toList
  match lastIndex ':' s with
  | none => .error "missing port in address"
  | some i =>
    match hostPart s i with
    | .error why => .error why
    | .ok (host,j,k) =>
      if '[' ∈ s.drop j then .error "unexpected '[' in address"
      else if ']' ∈ s.drop k then .error "unexpected ']' in address"
      else .ok (String.ofList host,String.ofList (s.drop (i + 1)))

/-- What has a port has a colon. -/
theorem mem_of_splitHostPort (split : splitHostPort hostport = .ok parts) : ':' ∈ hostport.toList := by
  unfold splitHostPort at split
  dsimp only at split
  split at split
  · cases split
  next last =>
    by_contra absent
    have none : hostport.toList.reverse.idxOf? ':' = none := by simpa using absent
    simp [lastIndex,none] at last

end Net

def hostForRequest (request : Request) : String :=
  match Net.splitHostPort request.host with
  | .error _ => request.host
  | .ok (host,_) => host

variable {K : Type}

/-- `draw` is what `rand.IntN` returns. -/
def selectUpstream (route : Route K) (draw : Fin route.upstreams.length) : String :=
  (route.upstreams.get draw).host

/-- `intN` stands for `rand.IntN`, of which one rewrite makes at most one call. -/
def rewriteRequest (toLower : String → String) (routes : Routes K) (decorators : List Decorator)
    (intN : (n : Nat) → 0 < n → Fin n) (inbound outbound : Request) : Request :=
  match routes.routeForDomain toLower (hostForRequest inbound) with
  | none => outbound
  | some route =>
    if empty : route.upstreams.length = 0 then outbound
    else
      let decorated := decorators.foldl (fun out decorate => decorate inbound out) outbound
      { decorated with url := { decorated.url with
          scheme := "http"
          host := selectUpstream route (intN _ (Nat.pos_of_ne_zero empty)) } }

/-- The outbound URL names an upstream of the request's route, or no host at all when
there is no such route or it has no upstreams. -/
def Confined (toLower : String → String) (routes : Routes K) (inbound outbound : Request) : Prop :=
  (∃ route, routes.routeForDomain toLower (hostForRequest inbound) = some route ∧
    outbound.url.scheme = "http" ∧ ∃ upstream ∈ route.upstreams, outbound.url.host = upstream.host) ∨
  (∀ route, routes.routeForDomain toLower (hostForRequest inbound) = some route →
    route.upstreams = []) ∧ outbound.url.host = ""

def Routed (toLower : String → String) (routes : Routes K) (inbound : Request) : Prop :=
  ∃ route, routes.routeForDomain toLower (hostForRequest inbound) = some route ∧ route.upstreams ≠ []

section Confinement

variable {toLower : String → String} {routes : Routes K} {decorators : List Decorator}
  {intN : (n : Nat) → 0 < n → Fin n} {inbound outbound : Request}

theorem rewriteRequest_unrouted (unrouted : ¬Routed toLower routes inbound) :
    rewriteRequest toLower routes decorators intN inbound outbound = outbound := by
  unfold rewriteRequest
  split
  · rfl
  next route found =>
    have none : route.upstreams = [] := by
      by_contra some
      exact unrouted ⟨route,found,some⟩
    simp [none]

/-- A routed request goes to one of its route's upstreams, whatever the decorators did. -/
theorem rewriteRequest_routed (routed : Routed toLower routes inbound) :
    ∃ route, routes.routeForDomain toLower (hostForRequest inbound) = some route ∧
      (rewriteRequest toLower routes decorators intN inbound outbound).url.scheme = "http" ∧
      ∃ upstream ∈ route.upstreams,
        (rewriteRequest toLower routes decorators intN inbound outbound).url.host = upstream.host := by
  obtain ⟨route,found,some⟩ := routed
  have nonempty : route.upstreams.length ≠ 0 := fun none => some (List.eq_nil_of_length_eq_zero none)
  refine ⟨route,found,?_⟩
  unfold rewriteRequest
  rw [found]
  dsimp only
  rw [dif_neg nonempty]
  exact ⟨rfl,_,List.get_mem ..,rfl⟩

end Confinement

/-- The outbound clone is confined exactly when its host is routed or its target was in
origin form: a request that is not routed keeps the URL its client wrote. -/
theorem confined_iff (toLower : String → String) (routes : Routes K) (decorators : List Decorator)
    (intN : (n : Nat) → 0 < n → Fin n) (inbound : Request) :
    Confined toLower routes inbound
        (rewriteRequest toLower routes decorators intN inbound inbound) ↔
      Routed toLower routes inbound ∨ inbound.url.host = "" := by
  by_cases routed : Routed toLower routes inbound
  · exact iff_of_true (.inl (rewriteRequest_routed routed)) (.inl routed)
  · rw [rewriteRequest_unrouted routed]
    constructor
    · rintro (⟨route,found,_,upstream,member,_⟩ | ⟨_,none⟩)
      · exact absurd ⟨route,found,List.ne_nil_of_mem member⟩ routed
      · exact .inr none
    · rintro (routed' | origin)
      · exact absurd routed' routed
      · refine .inr ⟨fun route found => ?_,origin⟩
        by_contra some
        exact routed ⟨route,found,some⟩

namespace Sample

def table : Routes Unit where
  domains domain := if domain = "example.com" then some (plainRoute .notRequired) else none
  fallback := none

/-- `GET http://169.254.169.254/latest/meta-data/ HTTP/1.1`. -/
def absolute : Request :=
  ⟨⟨"http","169.254.169.254","/latest/meta-data/","",""⟩,"169.254.169.254",[],"192.0.2.1:50000",false⟩

/-- The proxy forwards to a host that no route mentions. -/
theorem absolute_forwarded :
    (rewriteRequest asciiLower table [] (fun _ some => ⟨0,some⟩) absolute absolute).url =
      absolute.url ∧
    ¬Confined asciiLower table absolute
      (rewriteRequest asciiLower table [] (fun _ some => ⟨0,some⟩) absolute absolute) := by
  have missing : table.routeForDomain asciiLower (hostForRequest absolute) = none := by
    decide
  have unrouted : ¬Routed asciiLower table absolute := by
    rintro ⟨route,found,_⟩
    rw [missing] at found
    cases found
  rw [rewriteRequest_unrouted unrouted]
  refine ⟨rfl,?_⟩
  rintro (⟨route,found,_⟩ | ⟨_,none⟩)
  · rw [missing] at found
    cases found
  · exact absurd none (by decide)

end Sample

end Centauri
