import Centauri.ConfigText
import Centauri.ErrorPages
import Centauri.NetUrl

/-! What an `on_error` line asks for, and what is requested. The target is cut at its first
slash, parsed, kept as an unescaped path with a raw query, and written and parsed once more. -/
namespace Centauri

open NetUrl (Bytes slash question hash)

def utf8 (s : String) : Bytes := s.toList.flatMap String.utf8EncodeChar

/-- The path and the queries of a `Url` or an `ErrorMapping` can be any bytes, of which a
character stands for one. -/
def latin (bytes : Bytes) : String := String.ofList (bytes.map fun b => Char.ofNat b.toNat)

def octets (s : String) : Bytes := s.toList.map fun c => UInt8.ofNat c.toNat

def Url.octets (u : Url) : NetUrl.URL :=
  ⟨u.host,Centauri.octets u.path,Centauri.octets u.rawPath,Centauri.octets u.rawQuery⟩

def Url.root : Url := ⟨"http","","/","",""⟩

theorem octets_latin (bytes : Bytes) : octets (latin bytes) = bytes := by
  have each : (fun c : Char => UInt8.ofNat c.toNat) ∘ (fun b : UInt8 => Char.ofNat b.toNat) = id := by
    funext b
    have small : b.toNat.isValidChar := .inl (by have := b.toNat_lt; omega)
    rw [Function.comp_apply,Char.ofNat,dif_pos small]
    exact UInt8.ofNat_toNat
  unfold octets latin
  rw [String.toList_ofList,List.map_map,each,List.map_id]

theorem octets_eq_nil : octets s = [] ↔ s = "" := by
  rw [octets,List.map_eq_nil_iff,← String.toList_inj]
  rfl

theorem utf8_slash (s : String) : utf8 ("/" ++ s) = slash :: utf8 s := by
  unfold utf8
  rw [String.toList_append,List.flatMap_append]
  rfl

/-- Some rewriter for which the mapping is in force asks for the page at a URL when a request
for the original one has failed. -/
def Asks (newRequest : Url → Option Url) (mapping : ErrorMapping) (original requested : Url) : Prop :=
  ∃ (K : Type) (toLower : String → String) (errors : ErrorClient) (routes : Routes K) (route : Route K)
    (status : Int) (request : Request) (sent : PageRequest),
    errors.newRequest = newRequest ∧
    routes.routeForDomain toLower (hostForRequest request) = some route ∧
    route.errorMappingForStatus status = some mapping ∧ request.url = original ∧
    Rewriter.pageRequest toLower errors routes status request = some sent ∧ sent.url = requested

theorem asks_iff {newRequest : Url → Option Url} : Asks newRequest mapping original requested ↔
    newRequest (mapping.target original) = some requested := by
  constructor
  · rintro ⟨K,toLower,errors,routes,route,status,request,sent,made,found,mapped,rfl,asked,rfl⟩
    obtain ⟨route',mapping',url,_,found',mapped',request,_,rfl⟩ := Rewriter.pageRequest_eq_some.mp asked
    cases found.symm.trans found'
    cases mapped.symm.trans mapped'
    rw [← made]
    exact request
  · intro made
    let errors : ErrorClient := ⟨newRequest,some fun _ => none,by rintro answer sent response ⟨⟩ ⟨⟩⟩
    let route : Route Unit :=
      { domains := [""],named := List.cons_ne_nil _ _,upstreams := [],subject := [],errorMappings := [mapping]
        provider := "",certificate := none,certificateStatus := .notRequired }
    let routes : Routes Unit := ⟨fun _ => none,some route⟩
    let request : Request := ⟨original,"",[],"",false⟩
    have mapped : route.errorMappingForStatus mapping.status = some mapping := by
      simp [route,Route.errorMappingForStatus]
    have found (domain : String) : routes.routeForDomain id domain = some route := rfl
    have asked : Rewriter.pageRequest id errors routes mapping.status request =
        some ⟨requested,copyForwarded request.header forwardedHeaders []⟩ :=
      Rewriter.pageRequest_eq_some.mpr ⟨route,mapping,requested,_,found _,mapped,made,rfl,rfl⟩
    exact ⟨Unit,id,errors,routes,route,mapping.status,request,_,rfl,found _,mapped,rfl,asked,rfl⟩

section Targets

/- How `net/url` reads the host off an authority. -/
variable (readAuthority : Bytes → Option String)

/-- `url.Parse`, for the path of an `on_error` line. -/
def parseURL (s : String) : Option (String × String) :=
  (NetUrl.parse readAuthority (utf8 s)).map fun url => (latin url.path,latin url.rawQuery)

/-- The URL that `http.NewRequestWithContext` makes of the text of another, which has the
scheme `http`; it drops an empty port. -/
def newRequest (target : Url) : Option Url :=
  (NetUrl.parse readAuthority (target.octets.string (utf8 target.host))).map fun url =>
    ⟨"http",Strings.trimSuffix url.host ":",latin url.path,latin url.rawPath,latin url.rawQuery⟩

/-- What is requested, for a target that can be. -/
theorem newRequest_some (made : newRequest readAuthority target = some requested) :
    NetUrl.Readable (octets target.rawQuery) ∧
    (∃ name, readAuthority (NetUrl.escapeHost (utf8 target.host)) = some name ∧
      requested.host = Strings.trimSuffix name ":") ∧
    requested.octets.escapedPath = NetUrl.URL.rooted target.octets.escapedPath ∧
    octets requested.rawQuery = NetUrl.before hash (octets target.rawQuery) := by
  obtain ⟨url,read,rfl⟩ := Option.map_eq_some_iff.mp made
  obtain ⟨readable,host,path,query⟩ := NetUrl.parse_stringWith_some readAuthority NetUrl.readback_http read
  refine ⟨readable,⟨url.host,host,rfl⟩,?_,?_⟩
  · rw [← path]
    unfold Url.octets NetUrl.URL.escapedPath
    simp only [octets_latin]
  · rw [octets_latin]
    exact query

theorem exists_newRequest (target : Url) (readable : NetUrl.Readable (octets target.rawQuery))
    (host : readAuthority (NetUrl.escapeHost (utf8 target.host)) = some name) :
    ∃ requested, newRequest readAuthority target = some requested := by
  obtain ⟨url,read⟩ :=
    NetUrl.exists_parse_stringWith readAuthority NetUrl.readback_http (u := target.octets) readable host
  exact ⟨_,Option.map_eq_some_iff.mpr ⟨url,read,rfl⟩⟩

def writtenPath (path : String) : Bytes := NetUrl.before question (slash :: utf8 path)

def writtenQuery (path : String) : Bytes := NetUrl.after question (slash :: utf8 path)

def AsWritten (host path : String) (requested : Url) : Prop :=
  requested.host = host ∧ requested.octets.escapedPath = writtenPath path ∧
    octets requested.rawQuery = writtenQuery path

def AsOriginal (host : String) (original requested : Url) : Prop :=
  requested.host = host ∧ requested.octets.escapedPath = original.octets.escapedPath ∧
    octets requested.rawQuery = octets original.rawQuery

def HostRefused (host : String) : Prop := readAuthority (NetUrl.escapeHost (utf8 host)) = none

def HostKept (host : String) : Prop :=
  ∃ name, readAuthority (NetUrl.escapeHost (utf8 host)) = some name ∧ Strings.trimSuffix name ":" = host

/-- A path without a fragment and without an authority, escaped the way `net/url` escapes
one. -/
structure Usual (path : String) : Prop where
  fragment : hash ∉ utf8 path
  authority : ∀ rest, writtenPath path = slash :: slash :: rest → rest.head? = some slash
  escaped : ∃ bytes, NetUrl.escape bytes = writtenPath path

def Passed (original : Url) : Prop :=
  NetUrl.URL.Rooted original.octets.escapedPath ∧ hash ∉ octets original.rawQuery

section Target

variable (mapping : ErrorMapping) (original : Url)

theorem ErrorMapping.target_host : (mapping.target original).host = mapping.upstream := by
  unfold target
  split <;> rfl

theorem ErrorMapping.target_pathless (pathless : mapping.path = "") :
    (mapping.target original).octets.escapedPath = original.octets.escapedPath ∧
      (mapping.target original).rawQuery = original.rawQuery := by
  have target : mapping.target original =
      ⟨"http",mapping.upstream,original.path,original.rawPath,original.rawQuery⟩ := by
    simp [ErrorMapping.target,pathless]
  rw [target]
  exact ⟨rfl,rfl⟩

theorem ErrorMapping.target_path (root : (octets mapping.path).head? = some slash) :
    (mapping.target original).octets.escapedPath = NetUrl.escape (octets mapping.path) ∧
      NetUrl.URL.Rooted (NetUrl.escape (octets mapping.path)) ∧
      (mapping.target original).rawQuery = mapping.rawQuery := by
  have nonempty : mapping.path ≠ "" := by
    intro none
    rw [octets_eq_nil.mpr none] at root
    cases root
  have target : mapping.target original = ⟨"http",mapping.upstream,mapping.path,"",mapping.rawQuery⟩ := by
    simp [ErrorMapping.target,nonempty]
  rw [target]
  obtain ⟨path,rooted⟩ := NetUrl.escapedPath_usual
    (u := ⟨mapping.upstream,octets mapping.path,[],octets mapping.rawQuery⟩) rfl root
  exact ⟨path,rooted,rfl⟩

end Target

/-- Without a path in the line, the original URL is requested if it is one that can be. -/
theorem asOriginal_iff (pathless : mapping.path = "") (original : Url) :
    (∀ requested, Asks (newRequest readAuthority) mapping original requested →
      AsOriginal mapping.upstream original requested) ↔
    HostRefused readAuthority mapping.upstream ∨ ¬NetUrl.Readable (octets original.rawQuery) ∨
      HostKept readAuthority mapping.upstream ∧ Passed original := by
  obtain ⟨targetPath,targetQuery⟩ := mapping.target_pathless original pathless
  have outcome {requested : Url} (made : newRequest readAuthority (mapping.target original) = some requested) :=
    newRequest_some readAuthority made
  simp only [mapping.target_host,targetPath,targetQuery] at outcome
  simp only [asks_iff]
  constructor
  · intro kept
    by_cases refused : HostRefused readAuthority mapping.upstream
    · exact .inl refused
    by_cases readable : NetUrl.Readable (octets original.rawQuery)
    swap
    · exact .inr (.inl readable)
    obtain ⟨name,host⟩ := Option.ne_none_iff_exists'.mp refused
    obtain ⟨requested,made⟩ := exists_newRequest readAuthority (mapping.target original)
      (by rw [targetQuery]; exact readable) (by rw [mapping.target_host]; exact host)
    obtain ⟨_,⟨name',host',same⟩,path,query⟩ := outcome made
    obtain ⟨sameHost,samePath,sameQuery⟩ := kept requested made
    refine .inr (.inr ⟨⟨name',host',same.symm.trans sameHost⟩,?_,?_⟩)
    · exact NetUrl.URL.rooted_eq_self.mp (path.symm.trans samePath)
    · rw [← sameQuery,query]
      exact NetUrl.not_mem_before hash _
  · rintro (refused | unreadable | ⟨⟨name,host,same⟩,root,free⟩) requested made
    all_goals obtain ⟨readable,⟨name',host',same'⟩,path,query⟩ := outcome made
    · cases refused.symm.trans host'
    · exact absurd readable unreadable
    · cases host.symm.trans host'
      exact ⟨same'.trans same,path.trans (NetUrl.URL.rooted_eq_self.mpr root),
        query.trans (NetUrl.before_free free)⟩

/-- The mapping of a line with a path: the raw query is as written up to a fragment, and the
path is unescaped and may have lost an authority. -/
theorem parseURL_some (read : parseURL readAuthority ("/" ++ path) = some (stored,query)) :
    let text := NetUrl.before hash (slash :: utf8 path)
    text.any NetUrl.isCTL = false ∧ octets query = NetUrl.after question text ∧
      ((∃ rest, NetUrl.before question text = slash :: slash :: rest ∧ rest.head? ≠ some slash ∧
          NetUrl.unescape (rest.dropWhile (· != slash)) = some (octets stored)) ∨
        (∀ rest, NetUrl.before question text = slash :: slash :: rest → rest.head? = some slash) ∧
          NetUrl.unescape (NetUrl.before question text) = some (octets stored)) := by
  unfold parseURL at read
  obtain ⟨url,parsed,eq⟩ := Option.map_eq_some_iff.mp read
  cases eq
  rw [utf8_slash] at parsed
  obtain ⟨clean,rooted⟩ := NetUrl.parse_slash_some readAuthority parsed
  rw [octets_latin,octets_latin]
  exact ⟨clean,NetUrl.parseRooted_some readAuthority rooted⟩

/-- Whatever the path, the mapping's own query can be requested. -/
theorem readable_stored (read : parseURL readAuthority ("/" ++ path) = some (stored,query)) :
    NetUrl.Readable (octets query) ∧ hash ∉ octets query := by
  obtain ⟨clean,same,_⟩ := parseURL_some readAuthority read
  have inside {b : UInt8} (member : b ∈ octets query) : b ∈ NetUrl.before hash (slash :: utf8 path) := by
    rw [same] at member
    exact NetUrl.mem_of_mem_after member
  have free : hash ∉ octets query := fun member => NetUrl.not_mem_before hash _ (inside member)
  refine ⟨⟨?_,?_⟩,free⟩
  · rw [NetUrl.before_free free,List.any_eq_false]
    intro b member
    exact List.any_eq_false.mp clean b (inside member)
  · rw [NetUrl.after_free free]
    rfl

/-- The mapping of a line without a fragment. -/
theorem parseURL_clean (clean : hash ∉ utf8 path)
    (read : parseURL readAuthority ("/" ++ path) = some (stored,query)) :
    octets query = writtenQuery path ∧
      ((∃ rest, writtenPath path = slash :: slash :: rest ∧ rest.head? ≠ some slash ∧
          NetUrl.unescape (rest.dropWhile (· != slash)) = some (octets stored)) ∨
        (∀ rest, writtenPath path = slash :: slash :: rest → rest.head? = some slash) ∧
          NetUrl.unescape (writtenPath path) = some (octets stored)) := by
  have whole : NetUrl.before hash (slash :: utf8 path) = slash :: utf8 path := by
    refine NetUrl.before_free fun member => ?_
    rcases List.mem_cons.mp member with eq | later
    · exact absurd eq (by decide)
    · exact clean later
  obtain ⟨_,stored⟩ := parseURL_some readAuthority read
  rw [whole] at stored
  exact stored

theorem writtenPath_head (path : String) : (writtenPath path).head? = some slash := by
  unfold writtenPath
  rw [NetUrl.before_cons (by decide)]
  rfl

theorem stored_head (read : NetUrl.unescape (writtenPath path) = some stored) : stored.head? = some slash := by
  obtain ⟨rest,eq⟩ := List.head?_eq_some_iff.mp (writtenPath_head path)
  rw [eq] at read
  obtain ⟨text,_,rfl⟩ := NetUrl.unescape_slash read
  rfl

/-- A fragment is not requested. -/
theorem AsWritten.no_fragment (made : newRequest readAuthority target = some requested)
    (written : AsWritten host path requested) : hash ∉ utf8 path := by
  intro member
  obtain ⟨_,_,_,query⟩ := newRequest_some readAuthority made
  rcases NetUrl.mem_cut question (List.mem_cons_of_mem slash member) with path | mark | later
  · have valid := NetUrl.URL.valid_escapedPath requested.octets
    rw [written.2.1] at valid
    exact (NetUrl.validByte_plain (List.all_eq_true.mp valid hash path)).1 rfl
  · exact absurd mark (by decide)
  · have same : octets requested.rawQuery = NetUrl.after question (slash :: utf8 path) := written.2.2
    rw [← same,query] at later
    exact NetUrl.not_mem_before hash _ later

/-- A request for `/` shows whether a path is requested as written. -/
theorem usual_of_asWritten {mapping : ErrorMapping}
    (read : parseURL readAuthority ("/" ++ path) = some (mapping.path,mapping.rawQuery))
    (made : newRequest readAuthority (mapping.target Url.root) = some requested)
    (written : AsWritten host path requested) : Usual path := by
  have clean := written.no_fragment readAuthority made
  obtain ⟨_,_,requestedPath,_⟩ := newRequest_some readAuthority made
  rw [written.2.1] at requestedPath
  obtain ⟨_,⟨rest,eq,_,unescaped⟩ | ⟨authority,unescaped⟩⟩ := parseURL_clean readAuthority clean read
  · rw [eq] at requestedPath
    rcases (NetUrl.URL.rooted_dropWhile rest).unescape unescaped with none | head
    · -- Nothing but an authority: the path of the original is requested.
      have root : Url.root.octets = ⟨"",[slash],[],[]⟩ := by decide +kernel
      rw [(mapping.target_pathless Url.root (octets_eq_nil.mp none)).1,root] at requestedPath
      cases requestedPath
    · obtain ⟨path,rooted,_⟩ := mapping.target_path Url.root head
      rw [path,NetUrl.URL.rooted_eq_self.mpr rooted] at requestedPath
      refine absurd requestedPath.symm (NetUrl.escape_ne_authority unescaped ?_)
      intro none
      rw [none] at head
      cases head
  · obtain ⟨path,rooted,_⟩ := mapping.target_path Url.root (stored_head unescaped)
    rw [path,NetUrl.URL.rooted_eq_self.mpr rooted] at requestedPath
    exact ⟨clean,authority,_,requestedPath.symm⟩

/-- With a path in the line, it is requested if it is written in the usual way. -/
theorem asWritten_iff (read : parseURL readAuthority ("/" ++ path) = some (mapping.path,mapping.rawQuery)) :
    (∀ original requested, Asks (newRequest readAuthority) mapping original requested →
      AsWritten mapping.upstream path requested) ↔
    HostRefused readAuthority mapping.upstream ∨ HostKept readAuthority mapping.upstream ∧ Usual path := by
  simp only [asks_iff]
  obtain ⟨readable,free⟩ := readable_stored readAuthority read
  have outcome {original requested : Url}
      (made : newRequest readAuthority (mapping.target original) = some requested) :=
    newRequest_some readAuthority made
  simp only [mapping.target_host] at outcome
  constructor
  · intro kept
    by_cases refused : HostRefused readAuthority mapping.upstream
    · exact .inl refused
    obtain ⟨name,host⟩ := Option.ne_none_iff_exists'.mp refused
    have possible : NetUrl.Readable (octets (mapping.target Url.root).rawQuery) := by
      unfold ErrorMapping.target
      split
      · exact readable
      · exact ⟨rfl,rfl⟩
    obtain ⟨requested,made⟩ := exists_newRequest readAuthority (mapping.target Url.root) possible
      (by rw [mapping.target_host]; exact host)
    have written := kept Url.root requested made
    obtain ⟨_,⟨name',host',same⟩,_⟩ := outcome made
    exact .inr ⟨⟨name',host',same.symm.trans written.1⟩,usual_of_asWritten readAuthority read made written⟩
  · rintro (refused | ⟨⟨name,host,same⟩,clean,authority,bytes,escaped⟩) original requested made
    all_goals obtain ⟨_,⟨name',host',same'⟩,path',query⟩ := outcome made
    · cases refused.symm.trans host'
    · cases host.symm.trans host'
      obtain ⟨storedQuery,⟨rest,eq,other,_⟩ | ⟨_,unescaped⟩⟩ := parseURL_clean readAuthority clean read
      · exact absurd (authority rest eq) other
      · obtain ⟨targetPath,rooted,targetQuery⟩ := mapping.target_path original (stored_head unescaped)
        rw [← escaped,NetUrl.unescape_escape] at unescaped
        rw [targetPath,NetUrl.URL.rooted_eq_self.mpr rooted,← Option.some.inj unescaped,escaped] at path'
        rw [targetQuery,NetUrl.before_free free,storedQuery] at query
        exact ⟨same'.trans same,path',query⟩

/-- An `on_error` line is requested as written, or stands for the original URL, just where
the host is kept and the path is in the form that the two passes through `net/url` leave
alone. -/
theorem onError_requested (parsed : Config.parseOnError (parseURL readAuthority) args = .ok mapping)
    (operands : Strings.fields args = [code,target]) :
    let host := (Strings.cut '/' target).1
    let path := (Strings.cut '/' target).2.1
    (path ≠ "" →
      ((∀ original requested, Asks (newRequest readAuthority) mapping original requested →
          AsWritten host path requested) ↔
        HostRefused readAuthority host ∨ HostKept readAuthority host ∧ Usual path)) ∧
    (path = "" → ∀ original,
      ((∀ requested, Asks (newRequest readAuthority) mapping original requested →
          AsOriginal host original requested) ↔
        HostRefused readAuthority host ∨ ¬NetUrl.Readable (octets original.rawQuery) ∨
          HostKept readAuthority host ∧ Passed original)) := by
  obtain ⟨code',target',fields,upstream,_,stored⟩ := Config.parseOnError_ok parsed
  cases operands.symm.trans fields
  dsimp only
  rw [← upstream]
  refine ⟨fun written => ?_,fun pathless original => ?_⟩
  · rw [if_neg written] at stored
    exact asWritten_iff readAuthority stored
  · rw [if_pos pathless] at stored
    exact asOriginal_iff readAuthority stored original

end Targets

namespace Sample

def plainHost (text : Bytes) : Option String := some (latin text)

theorem oops_usual : Usual "oops?code=404" := by
  refine ⟨by decide +kernel,fun rest eq => ?_,writtenPath "oops?code=404",by decide +kernel⟩
  have second : ((writtenPath "oops?code=404").drop 1).head? ≠ some slash := by decide +kernel
  rw [eq] at second
  exact absurd rfl second

theorem oops_requested :
    Config.parseOnError (parseURL plainHost) "404 pages/oops?code=404" = .ok ⟨404,"pages","/oops","code=404"⟩ ∧
    ∀ original requested, Asks (newRequest plainHost) ⟨404,"pages","/oops","code=404"⟩ original requested →
      AsWritten "pages" "oops?code=404" requested := by
  have parsed : Config.parseOnError (parseURL plainHost) "404 pages/oops?code=404" =
      .ok ⟨404,"pages","/oops","code=404"⟩ := by decide +kernel
  have operands : Strings.fields "404 pages/oops?code=404" = ["404","pages/oops?code=404"] := by decide +kernel
  have cut : Strings.cut '/' "pages/oops?code=404" = ("pages","oops?code=404",true) := by decide +kernel
  have written := (onError_requested plainHost parsed operands).1
  simp only [cut] at written
  have kept : HostKept plainHost "pages" := ⟨"pages",by decide +kernel,by decide +kernel⟩
  exact ⟨parsed,(written (by decide)).mpr (.inr ⟨kept,oops_usual⟩)⟩

/-- The escaped slash is forgotten, and the page of another path is requested. -/
theorem escapedSlash_lost :
    Config.parseOnError (parseURL plainHost) "404 pages/a%2Fb" = .ok ⟨404,"pages","/a/b",""⟩ ∧
    Asks (newRequest plainHost) ⟨404,"pages","/a/b",""⟩ Url.root ⟨"http","pages","/a/b","",""⟩ ∧
    ¬AsWritten "pages" "a%2Fb" ⟨"http","pages","/a/b","",""⟩ := by
  refine ⟨by decide +kernel,asks_iff.mpr (by decide +kernel),fun written => ?_⟩
  have other : (Url.octets ⟨"http","pages","/a/b","",""⟩).escapedPath ≠ writtenPath "a%2Fb" := by decide +kernel
  exact other written.2.1

end Sample

end Centauri
