import Centauri.Addresses
import Centauri.HttpHeader
import Centauri.Rewriter

/-! The decorators a request passes on its way to an upstream, and what a client can
achieve through the headers they look after. -/
namespace Centauri

/-- `net.SplitHostPort` leaves an empty host when it fails. -/
def remoteIP (request : Request) : String :=
  match Net.splitHostPort request.remoteAddr with
  | .error _ => ""
  | .ok (host,_) => host

def trusted (trustedDownstreams : List Net.IPNet) (ip : String) : Bool :=
  match Net.parseIP ip with
  | none => false
  | some parsed => trustedDownstreams.any (·.contains parsed)

/-- One of the three blocks of `xForwardedForDecorator`: what a trusted downstream sent
under the name is kept in some form, and `own` is set otherwise. -/
def forward (trusted : Bool) (name own : String) (kept : String → String) (inbound out : HttpHeader) :
    HttpHeader :=
  let h := inbound.get name
  if !trusted || h == "" then out.set name own else out.set name (kept h)

theorem lookup_forward (trusted : Bool) (name own : String) (kept : String → String)
    (inbound out : HttpHeader) (key : String) :
    (forward trusted name own kept inbound out).lookup key =
      if key = canonicalHeaderKey name then
        some [if trusted = true ∧ inbound.get name ≠ "" then kept (inbound.get name) else own]
      else out.lookup key := by
  unfold forward
  dsimp only
  cases trusted with
  | false => simp [HttpHeader.lookup_set]
  | true =>
    by_cases absent : inbound.get name = ""
    · simp [absent,HttpHeader.lookup_set]
    · simp [absent,HttpHeader.lookup_set]

def xForwardedForDecorator (trustedDownstreams : List Net.IPNet) : Decorator := fun inbound out =>
  let ip := remoteIP out
  let trusted := trusted trustedDownstreams ip
  let header := forward trusted "X-Forwarded-For" ip (· ++ ", " ++ ip) inbound.header out.header
  let header := forward trusted "X-Forwarded-Host" out.host id inbound.header header
  let header := forward trusted "X-Forwarded-Proto" (if out.tls then "https" else "http") id
    inbound.header header
  { out with header := header }

theorem forwarding_canonical : canonicalHeaderKey "X-Forwarded-For" = "X-Forwarded-For" ∧
    canonicalHeaderKey "X-Forwarded-Host" = "X-Forwarded-Host" ∧
    canonicalHeaderKey "X-Forwarded-Proto" = "X-Forwarded-Proto" := by
  decide +kernel

def bannedHeaders : List String :=
  ["X-Real-IP","True-Client-IP","Forwarded","Tailscale-User-Login","Tailscale-User-Name",
    "Tailscale-User-Profile-Pic"]

def bannedHeaderDecorator : Decorator := fun _ out =>
  { out with header := bannedHeaders.foldl (fun h name => HttpHeader.del name h) out.header }

def userAgentDecorator : Decorator := fun _ out =>
  if (out.header.lookup "User-Agent").isSome then out
  else { out with header := HttpHeader.set "User-Agent" "" out.header }

structure UserProfile where
  loginName : String
  displayName : String
  profilePicURL : String

/-- `whoIs` is the Tailscale daemon's answer for a remote address. -/
def tailscaleHeaderDecorator (whoIs : String → Except String UserProfile) : Decorator := fun _ out =>
  match whoIs out.remoteAddr with
  | .error _ => out
  | .ok user =>
    let header := HttpHeader.set "Tailscale-User-Login" user.loginName out.header
    let header := HttpHeader.set "Tailscale-User-Name" user.displayName header
    let header := HttpHeader.set "Tailscale-User-Profile-Pic" user.profilePicURL header
    { out with header := header }

def decorators (trustedDownstreams : List Net.IPNet)
    (tailscale : Option (String → Except String UserProfile)) : List Decorator :=
  [xForwardedForDecorator trustedDownstreams,bannedHeaderDecorator,userAgentDecorator] ++
    tailscale.toList.map tailscaleHeaderDecorator

def standard (downstreams : List Net.IPNet) : Decorator := fun inbound out =>
  userAgentDecorator inbound
    (bannedHeaderDecorator inbound (xForwardedForDecorator downstreams inbound out))

theorem decorators_foldl (downstreams : List Net.IPNet)
    (tailscale : Option (String → Except String UserProfile)) (inbound out : Request) :
    (decorators downstreams tailscale).foldl (fun out decorate => decorate inbound out) out =
      tailscale.elim (standard downstreams inbound out)
        fun whoIs => tailscaleHeaderDecorator whoIs inbound (standard downstreams inbound out) := by
  cases tailscale <;> simp [decorators,standard]

/-- What is sent by an untrusted downstream is overwritten unread. -/
theorem Agree.forward (agree : Agree (canonicalHeaderKey name :: names) h h') (own : String)
    (kept : String → String) (inbound inbound' : HttpHeader) :
    Agree names (forward false name own kept inbound h) (forward false name own kept inbound' h') :=
  agree.set own

def clientHeaders : List String :=
  ["X-Forwarded-For","X-Forwarded-Host","X-Forwarded-Proto","X-Real-IP","True-Client-IP","Forwarded",
    "Tailscale-User-Login","Tailscale-User-Name","Tailscale-User-Profile-Pic"]

/-- Two requests that differ only in the values, number or presence of some headers. -/
structure SameBut (names : List String) (a b : Request) : Prop where
  url : a.url = b.url
  host : a.host = b.host
  remoteAddr : a.remoteAddr = b.remoteAddr
  tls : a.tls = b.tls
  header : Agree (names.map canonicalHeaderKey) a.header b.header

section Noninterference

variable {downstreams : List Net.IPNet} {a b in₁ in₂ : Request}

theorem SameBut.remoteIP (same : SameBut names a b) : remoteIP a = remoteIP b := by
  unfold Centauri.remoteIP
  rw [same.remoteAddr]

theorem SameBut.xForwardedFor (same : SameBut clientHeaders a b)
    (untrusted : trusted downstreams (Centauri.remoteIP a) = false) :
    SameBut bannedHeaders (xForwardedForDecorator downstreams in₁ a)
      (xForwardedForDecorator downstreams in₂ b) := by
  have untrusted' : trusted downstreams (Centauri.remoteIP b) = false := same.remoteIP ▸ untrusted
  unfold xForwardedForDecorator
  dsimp only
  rw [untrusted,untrusted',← same.remoteIP,← same.host,← same.tls]
  refine ⟨same.url,rfl,same.remoteAddr,rfl,?_⟩
  have first := same.header.forward (Centauri.remoteIP a) (· ++ ", " ++ Centauri.remoteIP a)
    in₁.header in₂.header
  have second := first.forward a.host id in₁.header in₂.header
  exact second.forward (if a.tls then "https" else "http") id in₁.header in₂.header

theorem SameBut.banned (same : SameBut bannedHeaders a b) :
    SameBut [] (bannedHeaderDecorator in₁ a) (bannedHeaderDecorator in₂ b) :=
  ⟨same.url,same.host,same.remoteAddr,same.tls,Agree.delAll bannedHeaders (by simpa using same.header)⟩

theorem SameBut.userAgent (same : SameBut [] a b) :
    SameBut [] (userAgentDecorator in₁ a) (userAgentDecorator in₂ b) := by
  unfold userAgentDecorator
  rw [same.header "User-Agent" (by simp)]
  split
  · exact same
  · exact ⟨same.url,same.host,same.remoteAddr,same.tls,same.header.overwrite "User-Agent" ""⟩

theorem SameBut.tailscale (same : SameBut [] a b) (whoIs : String → Except String UserProfile) :
    SameBut [] (tailscaleHeaderDecorator whoIs in₁ a) (tailscaleHeaderDecorator whoIs in₂ b) := by
  unfold tailscaleHeaderDecorator
  rw [same.remoteAddr]
  split
  · exact same
  · refine ⟨same.url,same.host,rfl,same.tls,?_⟩
    exact ((same.header.overwrite _ _).overwrite _ _).overwrite _ _

theorem SameBut.decorated (tailscale : Option (String → Except String UserProfile))
    (same : SameBut clientHeaders a b)
    (untrusted : trusted downstreams (Centauri.remoteIP a) = false) :
    SameBut [] ((decorators downstreams tailscale).foldl (fun out decorate => decorate in₁ out) a)
      ((decorators downstreams tailscale).foldl (fun out decorate => decorate in₂ out) b) := by
  have common : SameBut [] (standard downstreams in₁ a) (standard downstreams in₂ b) :=
    (same.xForwardedFor untrusted).banned.userAgent
  rw [decorators_foldl,decorators_foldl]
  cases tailscale with
  | none =>
    simp only [Option.elim_none]
    exact common
  | some whoIs =>
    simp only [Option.elim_some]
    exact common.tailscale whoIs

/-- A header that a decorator does not look after passes it unchanged. -/
theorem bannedHeader_lookup (spared : key ∉ bannedHeaders.map canonicalHeaderKey) :
    (bannedHeaderDecorator in₁ a).header.lookup key = a.header.lookup key := by
  have passed := HttpHeader.lookup_delAll bannedHeaders key a.header
  rwa [if_neg spared] at passed

theorem userAgent_lookup (spared : key ≠ "User-Agent") :
    (userAgentDecorator in₁ a).header.lookup key = a.header.lookup key := by
  have canonical : canonicalHeaderKey "User-Agent" = "User-Agent" := by decide
  unfold userAgentDecorator
  split
  · rfl
  · rw [HttpHeader.lookup_set,canonical,if_neg spared]

theorem tailscale_lookup (whoIs : String → Except String UserProfile)
    (spared : key ∉ bannedHeaders.map canonicalHeaderKey) :
    (tailscaleHeaderDecorator whoIs in₁ a).header.lookup key = a.header.lookup key := by
  simp only [bannedHeaders,List.map_cons,List.mem_cons,not_or] at spared
  unfold tailscaleHeaderDecorator
  split
  · rfl
  · simp only [HttpHeader.lookup_set,spared,if_false]

/-- What `xForwardedForDecorator` sets arrives at the upstream. -/
theorem decorators_lookup (tailscale : Option (String → Except String UserProfile))
    (spared : key ∉ bannedHeaders.map canonicalHeaderKey) (other : key ≠ "User-Agent") :
    ((decorators downstreams tailscale).foldl (fun out decorate => decorate in₁ out) a).header.lookup key =
      (xForwardedForDecorator downstreams in₁ a).header.lookup key := by
  have common : (standard downstreams in₁ a).header.lookup key =
      (xForwardedForDecorator downstreams in₁ a).header.lookup key := by
    rw [standard,userAgent_lookup other,bannedHeader_lookup spared]
  rw [decorators_foldl]
  cases tailscale with
  | none =>
    simp only [Option.elim_none]
    exact common
  | some whoIs =>
    simp only [Option.elim_some]
    exact (tailscale_lookup whoIs spared).trans common

end Noninterference

/-- The headers of a routed request are those its decorators left. -/
theorem rewriteRequest_header {K : Type} {toLower : String → String} {routes : Routes K}
    {chain : List Decorator} {intN : (n : Nat) → 0 < n → Fin n} {inbound outbound : Request}
    (routed : Routed toLower routes inbound) :
    (rewriteRequest toLower routes chain intN inbound outbound).header =
      (chain.foldl (fun out decorate => decorate inbound out) outbound).header := by
  obtain ⟨route,found,upstreams⟩ := routed
  have nonempty : route.upstreams.length ≠ 0 :=
    fun none => upstreams (List.eq_nil_of_length_eq_zero none)
  simp only [rewriteRequest,found,nonempty,dif_neg,not_false_eq_true]

/-- An untrusted client has no influence on the upstream's view of it: two routed requests
that differ only in the headers named arrive with the same headers, and the forwarded
address is the remote one alone. -/
theorem client_headers_ignored {K : Type} (toLower : String → String) (routes : Routes K)
    (downstreams : List Net.IPNet) (tailscale : Option (String → Except String UserProfile))
    (intN intN' : (n : Nat) → 0 < n → Fin n) (in₁ in₂ out₁ out₂ : Request)
    (routed : Routed toLower routes in₁) (sameIn : SameBut clientHeaders in₁ in₂)
    (sameOut : SameBut clientHeaders out₁ out₂)
    (untrusted : trusted downstreams (remoteIP out₁) = false) :
    (∀ key, (rewriteRequest toLower routes (decorators downstreams tailscale) intN in₁
        out₁).header.lookup key =
      (rewriteRequest toLower routes (decorators downstreams tailscale) intN' in₂
        out₂).header.lookup key) ∧
    (rewriteRequest toLower routes (decorators downstreams tailscale) intN in₁
      out₁).header.lookup "X-Forwarded-For" = some [remoteIP out₁] := by
  have routed' : Routed toLower routes in₂ := by
    unfold Routed hostForRequest at routed ⊢
    rwa [← sameIn.host]
  rw [rewriteRequest_header routed,rewriteRequest_header routed']
  constructor
  · intro key
    exact (sameOut.decorated tailscale untrusted).header key (by simp)
  · rw [decorators_lookup tailscale (by decide) (by decide)]
    simp [xForwardedForDecorator,forward,untrusted,HttpHeader.lookup_set,forwarding_canonical]

namespace Sample

def spoofed : Request :=
  { url := ⟨"","","/","",""⟩,host := "example.com",remoteAddr := "192.0.2.1:50000",tls := true
    header := [("Accept",["*/*"]),("X-Forwarded-For",["10.0.0.1","10.0.0.2"]),
      ("X-Real-Ip",["10.0.0.1"]),("Tailscale-User-Login",["admin@example.com"])] }

def honest : Request := { spoofed with header := [("Accept",["*/*"])] }

theorem spoofed_sameBut : SameBut clientHeaders spoofed honest := by
  refine ⟨rfl,rfl,rfl,rfl,fun key other => ?_⟩
  have differs (name : String) (listed : name ∈ clientHeaders.map canonicalHeaderKey) :
      (key == name) = false := by
    rw [beq_eq_false_iff_ne]
    rintro rfl
    exact other listed
  simp only [spoofed,honest,List.lookup_cons,List.lookup_nil,differs "X-Forwarded-For" (by decide),
    differs "X-Real-Ip" (by decide),differs "Tailscale-User-Login" (by decide)]

/-- The upstream sees the spoofing client's own address and no Tailscale user. -/
theorem spoofed_ignored :
    (rewriteRequest asciiLower table (decorators [⟨[10,0,0,0],[255,0,0,0]⟩]
      (some fun _ => .error "not a peer")) (fun _ some => ⟨0,some⟩) spoofed spoofed).header.lookup
        "X-Forwarded-For" = some ["192.0.2.1"] ∧
    (rewriteRequest asciiLower table (decorators [⟨[10,0,0,0],[255,0,0,0]⟩]
      (some fun _ => .error "not a peer")) (fun _ some => ⟨0,some⟩) spoofed spoofed).header.lookup
        "Tailscale-User-Login" = none := by
  have host : hostForRequest spoofed = "example.com" := by decide
  have found : table.routeForDomain asciiLower (hostForRequest spoofed) =
      some (plainRoute .notRequired) := by
    have lower : asciiLower "example.com" = "example.com" := by decide
    rw [host,Routes.routeForDomain,Routes.routeFor,Routes.get,lower]
    rfl
  have routed : Routed asciiLower table spoofed := ⟨plainRoute .notRequired,found,by decide⟩
  obtain ⟨same,address⟩ := client_headers_ignored asciiLower table [⟨[10,0,0,0],[255,0,0,0]⟩]
    (some fun _ => .error "not a peer") (fun _ some => ⟨0,some⟩) (fun _ some => ⟨0,some⟩)
    spoofed honest spoofed honest routed spoofed_sameBut spoofed_sameBut (by decide +kernel)
  refine ⟨address.trans (by decide +kernel),?_⟩
  rw [same]
  decide +kernel

end Sample

end Centauri
