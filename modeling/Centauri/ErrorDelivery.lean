import Centauri.HeaderValues

/-! What the client gets of an error: the policy that `RewriteResponse` and `RewriteError` share,
and where they leave it. -/
namespace Centauri

namespace Rewriter

/-- What only the reverse proxy removes does not show: the rules leave under its name what they
would leave without it. -/
def Masked (rules : List Header) (h : HttpHeader) : Prop :=
  ∀ name ∈ "Proxy-Connection" :: h.connectionListed, canonicalHeaderKey name ∈ hopByHopHeaders ∨
    Header.effectAll (Header.named (canonicalHeaderKey name) rules) (h.values (canonicalHeaderKey name)) =
      Header.effectAll (Header.named (canonicalHeaderKey name) rules) []

theorem values_removeHopByHopHeaders (h : HttpHeader) (key : String) :
    (removeHopByHopHeaders h).values key = if key ∈ hopByHopHeaders then [] else h.values key := by
  rw [HttpHeader.values,lookup_removeHopByHopHeaders]
  split <;> rfl

theorem values_proxyRemoved (h : HttpHeader) (key : String) :
    (ReverseProxy.removeHopByHopHeaders h).values key =
      if key ∈ ("Proxy-Connection" :: h.connectionListed).map canonicalHeaderKey ∨ key ∈ hopByHopHeaders then []
      else h.values key := by
  rw [HttpHeader.values,ReverseProxy.lookup_removeHopByHopHeaders]
  split <;> rfl

theorem masked_iff (rules : List Header) (h : HttpHeader) :
    (∀ key, (Header.applyAll rules (removeHopByHopHeaders h)).values key =
      (Header.applyAll rules (ReverseProxy.removeHopByHopHeaders h)).values key) ↔ Masked rules h := by
  simp only [Header.values_applyAll,values_removeHopByHopHeaders,values_proxyRemoved]
  constructor
  · intro same name listed
    have here := same (canonicalHeaderKey name)
    rw [if_pos (Or.inl (List.mem_map_of_mem listed))] at here
    by_cases removed : canonicalHeaderKey name ∈ hopByHopHeaders
    · exact .inl removed
    · rw [if_neg removed] at here
      exact .inr here
  · intro masked key
    by_cases removed : key ∈ hopByHopHeaders
    · rw [if_pos removed,if_pos (Or.inr removed)]
    by_cases listed : key ∈ ("Proxy-Connection" :: h.connectionListed).map canonicalHeaderKey
    · rw [if_neg removed,if_pos (Or.inl listed)]
      obtain ⟨name,member,rfl⟩ := List.mem_map.mp listed
      exact (masked name member).resolve_left removed
    · rw [if_neg removed,if_neg (not_or.mpr ⟨listed,removed⟩)]

section Uniform

variable {K : Type} (toLower : String → String) (errors : ErrorClient) (routes : Routes K) (request : Request)

/-- What the client gets when the upstream answers, or gives no usable response. Nothing was
written before an error is handled. -/
def deliver : Option Response → Page
  | some response => (rewriteResponse toLower errors routes routes request response).page
  | none => rewriteError toLower errors handleError routes routes [] request

def statusOf (outcome : Option Response) : Int := outcome.elim 502 Response.statusCode

structure Replaced (status : Int) (replacement : Response) : Prop where
  failed : 400 ≤ status
  mapped : ∃ route mapping url answer,
    routes.routeForDomain toLower (hostForRequest request) = some route ∧
    route.errorMappingForStatus status = some mapping ∧
    errors.newRequest (mapping.target request.url) = some url ∧ errors.client = some answer ∧
    answer ⟨url,copyForwarded request.header forwardedHeaders []⟩ = some replacement

/-- What the client is to get, given what takes the place of the upstream's answer. Of a page
from elsewhere neither the hop-by-hop headers nor the trailer, which is announced in one, are
passed on. -/
structure Delivered (outcome : Option Response) (page : Page) : Prop where
  statusCode : page.statusCode = statusOf outcome
  replaced : ∀ replacement, Replaced toLower errors routes request (statusOf outcome) replacement →
    page.body = replacement.body ∧ page.trailer = [] ∧
    ∀ key, page.header.values key = (Header.applyAll (rules toLower routes request)
      (ReverseProxy.removeHopByHopHeaders replacement.header)).values key
  original : (¬∃ replacement, Replaced toLower errors routes request (statusOf outcome) replacement) →
    page.body = outcome.elim badGatewayError.toUTF8.toList Response.body ∧
    page.trailer = outcome.elim [] Response.trailer ∧
    page.header = Header.applyAll (rules toLower routes request) (outcome.elim [] Response.header)

/-- A client cannot tell the pages apart. -/
structure Page.Alike (page other : Page) : Prop where
  statusCode : page.statusCode = other.statusCode
  body : page.body = other.body
  trailer : page.trailer = other.trailer
  header : ∀ key, page.header.values key = other.header.values key

variable {toLower errors routes request}

theorem replaced_iff (failed : 400 ≤ status) : Replaced toLower errors routes request status replacement ↔
    fetchErrorPage toLower errors routes status request = some replacement := by
  rw [fetchErrorPage_eq_some]
  exact ⟨Replaced.mapped,Replaced.mk failed⟩

theorem Replaced.wire (replaced : Replaced toLower errors routes request status replacement) :
    replacement.header.Wire := by
  obtain ⟨_,_,_,answer,_,_,_,present,answered⟩ := replaced.mapped
  exact errors.wire answer _ replacement present answered

/-- A page that is written to an empty writer has the headers of the replacement. -/
theorem Replaced.copied (replaced : Replaced toLower errors routes request status replacement) :
    Agree [] (HttpHeader.copy [] (removeHopByHopHeaders replacement.header))
      (removeHopByHopHeaders replacement.header) := by
  intro key _
  have wire : (removeHopByHopHeaders replacement.header).Wire := replaced.wire.delAll hopByHopHeaders
  rw [HttpHeader.lookup_copy wire (fun _ _ => rfl)]
  exact Option.or_none

/-- Where a page takes the place of the answer, the code's own choice of headers goes with it, and
on one of the two paths the trailer. -/
structure Replacing (toLower : String → String) (routes : Routes K) (request : Request) (outcome : Option Response)
    (replacement : Response) (page : Page) : Prop where
  statusCode : page.statusCode = statusOf outcome
  body : page.body = replacement.body
  trailer : page.trailer = outcome.elim [] fun _ => replacement.trailer
  header : ∀ key, page.header.values key =
    (Header.applyAll (rules toLower routes request) (removeHopByHopHeaders replacement.header)).values key

theorem Replaced.response {response : Response}
    (replaced : Replaced toLower errors routes request response.statusCode replacement) :
    Replacing toLower routes request (some response) replacement
      (deliver toLower errors routes request (some response)) := by
  have fetched := (replaced_iff replaced.failed).mp replaced
  unfold deliver rewriteResponse replaceWithUpstreamErrorPage
  dsimp only
  rw [if_pos (ge_iff_le.mpr replaced.failed),fetched,rewriteHeaders_eq]
  exact ⟨rfl,rfl,rfl,fun _ => rfl⟩

theorem Replaced.error (replaced : Replaced toLower errors routes request 502 replacement) :
    Replacing toLower routes request none replacement (deliver toLower errors routes request none) := by
  have fetched := (replaced_iff replaced.failed).mp replaced
  unfold deliver rewriteError serveUpstreamErrorPage
  rw [fetched]
  refine ⟨rfl,rfl,rfl,fun key => ?_⟩
  dsimp only
  rw [rewriteHeaders_eq,HttpHeader.values,Header.agree_applyAll _ replaced.copied key (by simp)]
  rfl

theorem Replaced.replacing (replaced : Replaced toLower errors routes request (statusOf outcome) replacement) :
    Replacing toLower routes request outcome replacement (deliver toLower errors routes request outcome) := by
  cases outcome with
  | none => exact replaced.error
  | some response => exact replaced.response

/-- An answer that stays, and the default page, are as they should be. -/
theorem deliver_original
    (absent : ¬∃ replacement, Replaced toLower errors routes request (statusOf outcome) replacement) :
    deliver toLower errors routes request outcome = ⟨statusOf outcome,
      Header.applyAll (rules toLower routes request) (outcome.elim [] Response.header),
      outcome.elim badGatewayError.toUTF8.toList Response.body,outcome.elim [] Response.trailer⟩ := by
  have unfetched (failed : 400 ≤ statusOf outcome) :
      fetchErrorPage toLower errors routes (statusOf outcome) request = none := by
    rw [Option.eq_none_iff_forall_ne_some]
    exact fun replacement fetched => absent ⟨replacement,(replaced_iff failed).mpr fetched⟩
  cases outcome with
  | none =>
    have fetched : fetchErrorPage toLower errors routes 502 request = none := unfetched (by decide)
    simp only [deliver,rewriteError,serveUpstreamErrorPage,fetched,rewriteHeaders_eq]
    rfl
  | some response =>
    have kept : (if response.statusCode ≥ 400 then
        (replaceWithUpstreamErrorPage toLower errors routes request response).1 else response) = response := by
      split
      next failed =>
        have fetched : fetchErrorPage toLower errors routes response.statusCode request = none := unfetched failed
        rw [replaceWithUpstreamErrorPage,fetched]
      next => rfl
    simp only [deliver,rewriteResponse,kept,rewriteHeaders_eq]
    rfl

/-- Both paths follow one policy exactly where nothing shows that only the reverse proxy removes,
and no trailer takes the way of a response. So a client cannot tell a 502 of the upstream from a
failure to reach it, where a page takes their place, exactly if the page has no trailer. -/
theorem deliver_uniform_iff {K : Type} (toLower : String → String) (errors : ErrorClient) (routes : Routes K)
    (request : Request) :
    (∀ outcome, Delivered toLower errors routes request outcome (deliver toLower errors routes request outcome) ↔
      ∀ replacement, Replaced toLower errors routes request (statusOf outcome) replacement →
        Masked (rules toLower routes request) replacement.header ∧ (outcome ≠ none → replacement.trailer = [])) ∧
    ∀ response replacement, response.statusCode = 502 → Replaced toLower errors routes request 502 replacement →
      (Page.Alike (deliver toLower errors routes request (some response)) (deliver toLower errors routes request none) ↔
        replacement.trailer = []) := by
  constructor
  · intro outcome
    constructor
    · intro delivered replacement replaced
      obtain ⟨_,trailer,header⟩ := delivered.replaced replacement replaced
      have replacing := replaced.replacing
      refine ⟨(masked_iff _ _).mp fun key => (replacing.header key).symm.trans (header key),fun answered => ?_⟩
      obtain ⟨response,rfl⟩ := Option.ne_none_iff_exists'.mp answered
      exact replacing.trailer.symm.trans trailer
    · intro clean
      by_cases replaced : ∃ replacement, Replaced toLower errors routes request (statusOf outcome) replacement
      · refine ⟨?_,fun replacement replaced => ?_,fun absent => absurd replaced absent⟩
        · obtain ⟨_,replaced⟩ := replaced
          exact replaced.replacing.statusCode
        · obtain ⟨masked,bare⟩ := clean replacement replaced
          have replacing := replaced.replacing
          refine ⟨replacing.body,?_,fun key => (replacing.header key).trans ((masked_iff _ _).mpr masked key)⟩
          rw [replacing.trailer]
          cases outcome with
          | none => rfl
          | some response => exact bare (by simp)
      · rw [deliver_original replaced]
        exact ⟨rfl,fun replacement here => absurd ⟨replacement,here⟩ replaced,fun _ => ⟨rfl,rfl,rfl⟩⟩
  · intro response replacement badGateway replaced
    have answered : Replacing toLower routes request (some response) replacement _ :=
      Replaced.response (badGateway.symm ▸ replaced)
    have unreachable := replaced.error
    constructor
    · exact fun alike => answered.trailer.symm.trans (alike.trailer.trans unreachable.trailer)
    · intro bare
      refine ⟨?_,answered.body.trans unreachable.body.symm,?_,fun key =>
        (answered.header key).trans (unreachable.header key).symm⟩
      · rw [answered.statusCode,unreachable.statusCode]
        exact badGateway
      · rw [answered.trailer,unreachable.trailer]
        exact bare

end Uniform

end Rewriter

namespace Sample

def explained (rules : List Header) : Routes Unit where
  domains domain := if domain = "example.com" then some { mappedRoute with headers := rules } else none
  fallback := none

theorem explained_found (rules : List Header) :
    (explained rules).routeForDomain asciiLower (hostForRequest spoofed) =
      some { mappedRoute with headers := rules } := by
  have host : hostForRequest spoofed = "example.com" := by decide +kernel
  have lower : asciiLower "example.com" = "example.com" := by decide
  rw [host,Routes.routeForDomain,Routes.routeFor,Routes.get,lower]
  rfl

def shardPage : Response := ⟨"200 OK",200,[("Connection",["close, x-shard"]),("X-Shard",["7"])],[],[]⟩

theorem shardPage_wire (answer : PageRequest → Option Response) (sent : PageRequest) (response : Response)
    (present : some (fun _ : PageRequest => some shardPage) = some answer) (answered : answer sent = some response) :
    response.header.Wire := by
  cases present
  cases answered
  exact ⟨by decide +kernel,by decide,by decide⟩

def shardErrors : ErrorClient := ⟨some,some fun _ => some shardPage,shardPage_wire⟩

theorem shardPage_replaces (rules : List Header) :
    Rewriter.Replaced asciiLower shardErrors (explained rules) spoofed 502 replacement ↔ replacement = shardPage := by
  constructor
  · rintro ⟨_,_,_,_,answer,_,_,_,present,answered⟩
    cases present
    exact (Option.some.inj answered).symm
  · rintro rfl
    exact ⟨by decide,_,_,_,_,explained_found rules,rfl,rfl,rfl,rfl⟩

/-- It reaches the client when the upstream is down. -/
theorem shard_shown : ¬Rewriter.Delivered asciiLower shardErrors (explained []) spoofed none
    (Rewriter.deliver asciiLower shardErrors (explained []) spoofed none) := by
  intro delivered
  have replaced := (shardPage_replaces []).mpr rfl
  have here := (delivered.replaced shardPage replaced).2.2 "X-Shard"
  rw [replaced.error.header,Header.values_applyAll,Header.values_applyAll] at here
  revert here
  rw [Rewriter.rules,explained_found]
  decide +kernel

/-- A rule of the route takes it away. -/
theorem shard_masked :
    let routes := explained [⟨"x-shard","",.delete⟩]
    let badGateway : Response := ⟨"502 Bad Gateway",502,[],[],[]⟩
    Rewriter.Delivered asciiLower shardErrors routes spoofed (some badGateway)
      (Rewriter.deliver asciiLower shardErrors routes spoofed (some badGateway)) := by
  intro routes badGateway
  refine ((Rewriter.deliver_uniform_iff asciiLower shardErrors routes spoofed).1 (some badGateway)).mpr ?_
  intro replacement replaced
  obtain rfl := (shardPage_replaces _).mp replaced
  refine ⟨?_,fun _ => rfl⟩
  rw [Rewriter.rules,explained_found]
  unfold Rewriter.Masked
  decide +kernel

end Sample

end Centauri
