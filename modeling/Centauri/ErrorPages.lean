import Centauri.Decorators

/-! Error pages. A response with an error status, and a request that got no response at all,
may be answered with a page from another upstream; two code paths see to it. -/
namespace Centauri

/-- As much of a response as reaches a client. The fields of the trailer follow the body; what
announces them is not among the headers. -/
structure Response where
  status : String
  statusCode : Int
  header : HttpHeader
  body : List UInt8
  trailer : HttpHeader
  deriving DecidableEq, Repr

/-- What is written to a client. A trailer is announced to it in a header of its own. -/
structure Page where
  statusCode : Int
  header : HttpHeader
  body : List UInt8
  trailer : HttpHeader
  deriving DecidableEq, Repr

def Response.page (response : Response) : Page :=
  ⟨response.statusCode,response.header,response.body,response.trailer⟩

structure PageRequest where
  url : Url
  header : HttpHeader
  deriving DecidableEq, Repr

/-- What becomes of a page request: `newRequest` is the URL that `http.NewRequest` makes of
the text of another, `none` for an error, and `client` how the error client is answered. A
rewriter may be without one. The headers of an answer were read off a connection. -/
structure ErrorClient where
  newRequest : Url → Option Url
  client : Option (PageRequest → Option Response)
  wire : ∀ answer sent response, client = some answer → answer sent = some response →
    HttpHeader.Wire response.header

namespace Header

def apply (rule : Header) (h : HttpHeader) : HttpHeader :=
  match rule.operation with
  | .delete => h.del rule.name
  | .add => h.add rule.name rule.value
  | .replace => h.set rule.name rule.value
  | .default => if h.get rule.name == "" then h.set rule.name rule.value else h

def applyAll (rules : List Header) (h : HttpHeader) : HttpHeader := rules.foldl (fun h rule => rule.apply h) h

theorem agree_apply (rule : Header) (agree : Agree [] h h') : Agree [] (rule.apply h) (rule.apply h') := by
  unfold apply
  cases rule.operation with
  | delete => exact Agree.del fun key _ => agree key (by simp)
  | add => exact agree.add rule.name rule.value
  | replace => exact agree.overwrite rule.name rule.value
  | default =>
    dsimp only
    rw [agree.get rule.name]
    split
    · exact agree.overwrite rule.name rule.value
    · exact agree

theorem agree_applyAll (rules : List Header) (agree : Agree [] h h') :
    Agree [] (applyAll rules h) (applyAll rules h') := by
  induction rules generalizing h h' with
  | nil => exact agree
  | cons rule rest ih => exact ih (rule.agree_apply agree)

end Header

def Route.errorMappingForStatus (route : Route K) (status : Int) : Option ErrorMapping :=
  route.errorMappings.find? fun mapping => mapping.status == status

def ErrorMapping.target (mapping : ErrorMapping) (original : Url) : Url :=
  if mapping.path != "" then ⟨"http",mapping.upstream,mapping.path,"",mapping.rawQuery⟩
  else ⟨"http",mapping.upstream,original.path,original.rawPath,original.rawQuery⟩

def forwardedHeaders : List String := ["X-Forwarded-For","X-Forwarded-Host","X-Forwarded-Proto"]

def copyForwarded (original : HttpHeader) (names : List String) (h : HttpHeader) : HttpHeader :=
  names.foldl (fun h name => if original.get name != "" then h.set name (original.get name) else h) h

theorem ErrorMapping.target_congr {a b : Url} (path : a.path = b.path) (rawPath : a.rawPath = b.rawPath)
    (rawQuery : a.rawQuery = b.rawQuery) (mapping : ErrorMapping) : mapping.target a = mapping.target b := by
  unfold target
  rw [path,rawPath,rawQuery]

theorem copyForwarded_congr {a b : HttpHeader} (same : ∀ name ∈ names, a.get name = b.get name)
    (h : HttpHeader) : copyForwarded a names h = copyForwarded b names h := by
  induction names generalizing h with
  | nil => rfl
  | cons name rest ih =>
    have later := ih fun name member => same name (List.mem_cons_of_mem _ member)
    unfold copyForwarded at later ⊢
    rw [List.foldl_cons,List.foldl_cons,same name List.mem_cons_self,later]

/-- One round of the loop. -/
theorem copyForwarded_step (original h : HttpHeader) (other name : String) :
    HttpHeader.get name (if original.get other != "" then h.set other (original.get other) else h) =
      if canonicalHeaderKey name = canonicalHeaderKey other ∧ original.get other ≠ "" then original.get other
      else h.get name := by
  by_cases empty : original.get other = ""
  · simp [empty]
  · simp [empty,HttpHeader.get_set]

theorem copyForwarded_kept {original : HttpHeader} (names : List String) {h : HttpHeader}
    (copied : h.get name = original.get name) : (copyForwarded original names h).get name = original.get name := by
  induction names generalizing h with
  | nil => exact copied
  | cons other rest ih =>
    apply ih
    rw [copyForwarded_step]
    split
    next same => exact (HttpHeader.get_canonical same.1 original).symm
    next => exact copied

/-- Every listed header is copied. -/
theorem get_copyForwarded {original : HttpHeader} (listed : name ∈ names) {h : HttpHeader}
    (empty : h.get name = "") : (copyForwarded original names h).get name = original.get name := by
  induction names generalizing h with
  | nil => cases listed
  | cons other rest ih =>
    change (copyForwarded original rest _).get name = _
    by_cases same : canonicalHeaderKey name = canonicalHeaderKey other
    · have equal := (HttpHeader.get_canonical same original).symm
      apply copyForwarded_kept
      rw [copyForwarded_step,equal]
      by_cases absent : original.get name = ""
      · simp [absent,empty]
      · simp [absent,same]
    · have later : name ∈ rest := (List.mem_cons.mp listed).resolve_left fun eq => same (by rw [eq])
      apply ih later
      rw [copyForwarded_step,if_neg (fun both => same both.1)]
      exact empty

def hopByHopHeaders : List String :=
  ["Connection","Keep-Alive","Proxy-Authenticate","Proxy-Authorization","Te","Trailer","Transfer-Encoding",
    "Upgrade"]

def removeHopByHopHeaders (header : HttpHeader) : HttpHeader :=
  hopByHopHeaders.foldl (fun h name => HttpHeader.del name h) header

namespace Rewriter

section Pages

variable {K : Type} (toLower : String → String) (errors : ErrorClient)

def rewriteHeaders (routes : Routes K) (request : Request) (headers : HttpHeader) : HttpHeader :=
  match routes.routeForDomain toLower (hostForRequest request) with
  | none => headers
  | some route => Header.applyAll route.headers headers

def pageRequest (routes : Routes K) (status : Int) (original : Request) : Option PageRequest := do
  let route ← routes.routeForDomain toLower (hostForRequest original)
  let _ ← errors.client
  let mapping ← route.errorMappingForStatus status
  let url ← errors.newRequest (mapping.target original.url)
  return ⟨url,copyForwarded original.header forwardedHeaders []⟩

def fetchErrorPage (routes : Routes K) (status : Int) (original : Request) : Option Response := do
  let request ← pageRequest toLower errors routes status original
  let client ← errors.client
  client request

/-- The response as the function leaves it, and what it returns. -/
def replaceWithUpstreamErrorPage (routes : Routes K) (request : Request) (response : Response) :
    Response × Bool :=
  match fetchErrorPage toLower errors routes response.statusCode request with
  | none => (response,false)
  | some replacement =>
    ({ replacement with
        header := removeHopByHopHeaders replacement.header
        status := response.status
        statusCode := response.statusCode },true)

/-- The table may change between the two lookups, so each has its own. -/
def rewriteResponse (fetching finishing : Routes K) (request : Request) (response : Response) : Response :=
  let response := if response.statusCode ≥ 400 then
    (replaceWithUpstreamErrorPage toLower errors fetching request response).1 else response
  { response with header := rewriteHeaders toLower finishing request response.header }

/-- What is written over the headers the writer has, or `none` where false is returned and
nothing was written. The trailer is not. -/
def serveUpstreamErrorPage (fetching finishing : Routes K) (writer : HttpHeader) (request : Request)
    (status : Int) : Option Page :=
  match fetchErrorPage toLower errors fetching status request with
  | none => none
  | some replacement =>
    let header := HttpHeader.copy writer (removeHopByHopHeaders replacement.header)
    some ⟨status,rewriteHeaders toLower finishing request header,replacement.body,[]⟩

def rewriteError (fn : HttpHeader → Page) (fetching finishing : Routes K) (writer : HttpHeader)
    (request : Request) : Page :=
  match serveUpstreamErrorPage toLower errors fetching finishing writer request 502 with
  | some page => page
  | none => fn (rewriteHeaders toLower finishing request writer)

end Pages

end Rewriter

def badGatewayError : String :=
  "<!doctype html>\n<html lang=\"en\">\n<head>\n  <title>502 Bad Gateway</title>\n</head>\n<body>\n" ++
    "  <h1>Bad Gateway</h1>\n  <p>The server was unable to complete your request. Please try again later.</p>\n" ++
    "</body>\n</html>"

def handleError (writer : HttpHeader) : Page :=
  ⟨502,writer,badGatewayError.toUTF8.toList,[]⟩

namespace Rewriter

section PageRequests

variable {K : Type} (toLower : String → String) (errors : ErrorClient) (routes : Routes K) (request : Request)

def rules : List Header := (routes.routeForDomain toLower (hostForRequest request)).elim [] Route.headers

variable {toLower errors routes request}

theorem rewriteHeaders_eq (h : HttpHeader) :
    rewriteHeaders toLower routes request h = Header.applyAll (rules toLower routes request) h := by
  unfold rewriteHeaders rules
  cases routes.routeForDomain toLower (hostForRequest request) with
  | none => rfl
  | some route => rfl

/-- Nothing but a route, a client and a mapping is needed for a page request. -/
theorem pageRequest_eq_some : pageRequest toLower errors routes status request = some sent ↔
    ∃ route mapping url answer,
      routes.routeForDomain toLower (hostForRequest request) = some route ∧
      route.errorMappingForStatus status = some mapping ∧
      errors.newRequest (mapping.target request.url) = some url ∧ errors.client = some answer ∧
      sent = ⟨url,copyForwarded request.header forwardedHeaders []⟩ := by
  simp only [pageRequest,Option.bind_eq_bind,Option.bind_eq_some_iff,Option.pure_def,Option.some.injEq]
  constructor
  · rintro ⟨route,found,answer,present,mapping,mapped,url,made,rfl⟩
    exact ⟨route,mapping,url,answer,found,mapped,made,present,rfl⟩
  · rintro ⟨route,mapping,url,answer,found,mapped,made,present,rfl⟩
    exact ⟨route,found,answer,present,mapping,mapped,url,made,rfl⟩

/-- What a page request is made of. -/
theorem pageRequest_congr {a b : Request} (host : a.host = b.host) (path : a.url.path = b.url.path)
    (rawPath : a.url.rawPath = b.url.rawPath) (rawQuery : a.url.rawQuery = b.url.rawQuery)
    (forwarded : ∀ name ∈ forwardedHeaders, HttpHeader.get name a.header = HttpHeader.get name b.header) :
    pageRequest toLower errors routes status a = pageRequest toLower errors routes status b := by
  have target (mapping : ErrorMapping) : mapping.target a.url = mapping.target b.url :=
    ErrorMapping.target_congr path rawPath rawQuery mapping
  unfold pageRequest hostForRequest
  rw [host,copyForwarded_congr forwarded]
  simp only [target]

theorem fetchErrorPage_eq_some : fetchErrorPage toLower errors routes status request = some replacement ↔
    ∃ route mapping url answer,
      routes.routeForDomain toLower (hostForRequest request) = some route ∧
      route.errorMappingForStatus status = some mapping ∧
      errors.newRequest (mapping.target request.url) = some url ∧ errors.client = some answer ∧
      answer ⟨url,copyForwarded request.header forwardedHeaders []⟩ = some replacement := by
  simp only [fetchErrorPage,Option.bind_eq_bind,Option.bind_eq_some_iff,pageRequest_eq_some]
  constructor
  · rintro ⟨_,⟨route,mapping,url,answer,found,mapped,made,present,rfl⟩,again,present',answered⟩
    cases present.symm.trans present'
    exact ⟨route,mapping,url,answer,found,mapped,made,present,answered⟩
  · rintro ⟨route,mapping,url,answer,found,mapped,made,present,answered⟩
    exact ⟨_,⟨route,mapping,url,answer,found,mapped,made,present,rfl⟩,answer,present,answered⟩

end PageRequests

end Rewriter

end Centauri
