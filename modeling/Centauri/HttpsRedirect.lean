import Centauri.ErrorTargets
import Centauri.NetLocation
import Centauri.RouteTable

/-! Redirects to HTTPS: where they lead, and what of a request they keep. -/
namespace Centauri

open NetUrl (Bytes slash question hash colon percent atSign bracket)

namespace HttpRedirector

inductive Reply where
  | status (code : Nat)
  | redirect (code : Nat) (location : Bytes)
  deriving DecidableEq, Repr

/-- The host is found as by `hostForRequest`. `http.Redirect` leaves a URL with a scheme as it is
but for bytes beyond ASCII. -/
def serveHTTP (request : Request) : Reply :=
  let host := hostForRequest request
  if !isDomainName host then .status 400
  else
    let targetUrl : NetUrl.URL := ⟨host,octets request.url.path,[],octets request.url.rawQuery⟩
    .redirect 308 (NetUrl.hexEscapeNonASCII (targetUrl.stringWith NetUrl.URL.https (octets host)))

def target (request : Request) : NetUrl.URL :=
  ⟨hostForRequest request,octets request.url.path,[],NetUrl.hexEscapeNonASCII (octets request.url.rawQuery)⟩

theorem serveHTTP_valid (valid : isDomainName (hostForRequest request) = true) :
    serveHTTP request =
      .redirect 308 ((target request).stringWith NetUrl.URL.https (octets (hostForRequest request))) := by
  have ascii : ∀ b ∈ NetUrl.URL.https, b < 0x80 := by decide +kernel
  simp only [serveHTTP,valid,Bool.not_true,Bool.false_eq_true,if_false,NetUrl.hexEscapeNonASCII_stringWith ascii]
  rfl

end HttpRedirector

/-! The hosts that are redirected to. -/

theorem plain_octets (chars : ∀ c ∈ s.toList, isDomainChar c = true) : NetUrl.PlainHost (octets s) := by
  have all : ∀ n : Fin 128, isDomainChar (Char.ofNat n) = true →
      UInt8.ofNat n ≠ atSign ∧ UInt8.ofNat n ≠ colon ∧ UInt8.ofNat n ≠ bracket ∧ UInt8.ofNat n ≠ percent ∧
        NetUrl.shouldEscapeHost (UInt8.ofNat n) = false := by decide +kernel
  intro b member
  obtain ⟨c,inside,rfl⟩ := List.mem_map.mp member
  have narrow := isDomainChar_ascii (chars c inside)
  apply all ⟨c.toNat,narrow⟩
  rw [Char.ofNat_toNat]
  exact chars c inside

def Labelled (s : List Char) : Prop :=
  ∃ labels : List (List Char), labels ≠ [] ∧ (∀ label ∈ labels, label ≠ [] ∧ ∀ c ∈ label, isLabelChar c = true) ∧
    (s = ['.'].intercalate labels ∨ s = ['.'].intercalate labels ++ ['.'])

/-- Only the last of the parts between dots can be empty; `partlen` counts for the first. -/
theorem scanDomainName_parts (accepted : scanDomainName last nonNumeric partlen s = true) :
    ∃ first later, s.splitOn '.' = first :: later ∧ (∀ part ∈ first :: later, ∀ c ∈ part, isLabelChar c = true) ∧
      (later = [] ∨ (partlen ≠ 0 ∨ first ≠ []) ∧ ∀ part ∈ later.dropLast, part ≠ []) := by
  induction s generalizing last nonNumeric partlen with
  | nil => exact ⟨[],[],rfl,by simp,.inl rfl⟩
  | cons c rest ih =>
    rw [List.splitOn_cons_eq_if_modifyHead]
    rcases scanDomainName_cons accepted with ⟨rfl,long,later⟩ | ⟨label,_,later⟩
    · obtain ⟨first,parts,split,chars,nonempty⟩ := ih later
      refine ⟨[],first :: parts,by simp [split],by simpa using chars,.inr ⟨.inl long,?_⟩⟩
      rcases nonempty with rfl | ⟨some,inner⟩
      · simp
      · cases parts with
        | nil => simp
        | cons second more =>
          rw [List.dropLast_cons_cons,List.forall_mem_cons]
          exact ⟨some.resolve_left (by simp),inner⟩
    · obtain ⟨first,parts,split,chars,nonempty⟩ := ih later
      have undotted : c ≠ '.' := by
        rintro rfl
        exact absurd label (by decide)
      rw [List.forall_mem_cons] at chars
      refine ⟨c :: first,parts,by simp [undotted,split],?_,nonempty.imp_right fun inner => ⟨.inr (by simp),inner.2⟩⟩
      rw [List.forall_mem_cons,List.forall_mem_cons]
      exact ⟨⟨label,chars.1⟩,chars.2⟩

theorem intercalate_append_nil (sep : List Char) (labels : List (List Char)) (some : labels ≠ []) :
    sep.intercalate (labels ++ [[]]) = sep.intercalate labels ++ sep := by
  induction labels with
  | nil => exact absurd rfl some
  | cons first rest ih =>
    cases rest with
    | nil => simp [List.intercalate]
    | cons second more =>
      have later := ih (by simp)
      simp only [List.intercalate,List.cons_append,List.intersperse_cons_cons,List.flatten_cons] at later ⊢
      rw [later]
      simp

theorem isDomainName_labelled (valid : isDomainName s = true) : Labelled s.toList := by
  unfold isDomainName at valid
  dsimp only at valid
  split at valid
  · cases valid
  next size =>
    have some : s.toList ≠ [] := by
      intro none
      simp [none] at size
    obtain ⟨first,later,split,chars,nonempty⟩ := scanDomainName_parts valid
    have whole : ['.'].intercalate (first :: later) = s.toList := by
      rw [← split]
      exact List.intercalate_splitOn '.'
    rcases nonempty with rfl | ⟨front,inner⟩
    · refine ⟨[first],by simp,?_,.inl whole.symm⟩
      have same : first = s.toList := by simpa [List.intercalate] using whole
      rw [List.forall_mem_singleton]
      exact ⟨same ▸ some,chars first List.mem_cons_self⟩
    · have named : first ≠ [] := front.resolve_left (by simp)
      cases later using List.reverseRecOn with
      | nil =>
        refine ⟨[first],by simp,?_,.inl whole.symm⟩
        rw [List.forall_mem_singleton]
        exact ⟨named,chars first List.mem_cons_self⟩
      | append_singleton middle final =>
        rw [List.dropLast_concat] at inner
        have labels : ∀ part ∈ first :: middle, part ≠ [] ∧ ∀ c ∈ part, isLabelChar c = true := by
          intro part member
          refine ⟨?_,chars part (by simp only [List.mem_cons,List.mem_append] at member ⊢; tauto)⟩
          rcases List.mem_cons.mp member with rfl | later
          · exact named
          · exact inner part later
        by_cases trailing : final = []
        · subst trailing
          refine ⟨first :: middle,by simp,labels,.inr ?_⟩
          rw [← whole,← List.cons_append,intercalate_append_nil _ _ (by simp)]
        · refine ⟨first :: (middle ++ [final]),by simp,?_,.inl whole.symm⟩
          intro part member
          rw [← List.cons_append,List.mem_append,List.mem_singleton] at member
          rcases member with early | rfl
          · exact labels part early
          · exact ⟨trailing,chars part (by simp)⟩

namespace HttpRedirector

section Confined

/-- A client is sent to the host of its request and nowhere else: no byte of the request's URL is
part of the authority, for the generic syntax and for `net/url` alike. -/
theorem redirect_confined (request : Request) :
    serveHTTP request = .status 400 ∨
    ∃ location, serveHTTP request = .redirect 308 location ∧
      Labelled (hostForRequest request).toList ∧
      (NetUrl.Reference.split location).scheme = some NetUrl.URL.https ∧
      (NetUrl.Reference.split location).authority = some (octets (hostForRequest request)) ∧
      atSign ∉ octets (hostForRequest request) ∧ colon ∉ octets (hostForRequest request) ∧
      ∀ readUser readLiteral,
        (∀ origin, NetUrl.parseOrigin readUser readLiteral location = some origin →
          origin = ⟨NetUrl.URL.https,none,octets (hostForRequest request)⟩ ∧ NetUrl.port origin.host = []) ∧
        (NetUrl.Readable (NetUrl.hexEscapeNonASCII (octets request.url.rawQuery)) →
          (NetUrl.parseOrigin readUser readLiteral location).isSome = true) := by
  cases valid : isDomainName (hostForRequest request) with
  | false => exact .inl (by simp [serveHTTP,valid])
  | true =>
    have plain := plain_octets (isDomainName_chars valid)
    obtain ⟨scheme,authority,_⟩ := NetUrl.split_stringWith NetUrl.URL.https (by decide) (by decide +kernel)
      (octets (hostForRequest request)) (target request)
    refine .inr ⟨_,serveHTTP_valid valid,isDomainName_labelled valid,scheme,?_,?_,?_,?_⟩
    · rw [authority,plain.escape]
    · exact fun member => (plain _ member).1 rfl
    · exact fun member => (plain _ member).2.1 rfl
    · intro readUser readLiteral
      constructor
      · intro origin read
        rw [NetUrl.parseOrigin_stringWith NetUrl.readback_https plain] at read
        obtain ⟨_,_,rfl⟩ := Option.map_eq_some_iff.mp read
        exact ⟨rfl,(plain.parse readUser readLiteral).2⟩
      · intro readable
        rw [NetUrl.exists_parseOrigin NetUrl.readback_https plain readable]
        rfl

end Confined

section Preserved

variable (readUser readLiteral : Bytes → Option Bytes) (request : Request)

def readAuthority (authority : Bytes) : Option String :=
  (NetUrl.parseAuthority readUser readLiteral authority).map fun found => latin found.2

/-- The Location is the request's own escaped path and query behind the host, and `net/url` reads
these off it again. -/
def Preserves : Prop :=
  ∃ location, serveHTTP request = .redirect 308 location ∧
    location = NetUrl.URL.https ++ [colon,slash,slash] ++ octets (hostForRequest request) ++
      request.url.octets.escapedPath ++ NetUrl.URL.querySuffix (octets request.url.rawQuery) ∧
    ∃ url, NetUrl.parse (readAuthority readUser readLiteral) location = some url ∧
      url.escapedPath = request.url.octets.escapedPath ∧ url.rawQuery = octets request.url.rawQuery

/-- A request is preserved exactly if its path is written in the usual way and its query has none
but printable characters and no hash. -/
theorem preserves_iff (valid : isDomainName (hostForRequest request) = true) :
    Preserves readUser readLiteral request ↔
      (NetUrl.URL.Rooted (octets request.url.path) ∧
        request.url.octets.escapedPath = NetUrl.escape (octets request.url.path)) ∧
      ∀ b ∈ octets request.url.rawQuery, b < 0x80 ∧ b ≠ hash ∧ NetUrl.isCTL b = false := by
  have plain := plain_octets (isDomainName_chars valid)
  have path := NetUrl.rooted_eq_iff (u := target request) (v := request.url.octets) rfl rfl
  have query := NetUrl.query_kept_iff (octets request.url.rawQuery)
  have accepted : readAuthority readUser readLiteral (NetUrl.escapeHost (octets (hostForRequest request))) =
      some (latin (octets (hostForRequest request))) := by
    rw [readAuthority,plain.escape,(plain.parse readUser readLiteral).1]
    rfl
  constructor
  · rintro ⟨location,replied,_,url,read,samePath,sameQuery⟩
    rw [serveHTTP_valid valid] at replied
    obtain rfl := (Reply.redirect.inj replied).2
    obtain ⟨readable,_,readPath,readQuery⟩ := NetUrl.parse_stringWith_some _ NetUrl.readback_https read
    exact ⟨path.mp (readPath.symm.trans samePath),query.mp ⟨readable,readQuery.symm.trans sameQuery⟩⟩
  · rintro ⟨usual,printable⟩
    have samePath := path.mpr usual
    obtain ⟨readable,sameQuery⟩ := query.mpr printable
    have ascii : NetUrl.hexEscapeNonASCII (octets request.url.rawQuery) = octets request.url.rawQuery :=
      NetUrl.hexEscapeNonASCII_eq_self.mpr fun b member => (printable b member).1
    obtain ⟨url,read⟩ := NetUrl.exists_parse_stringWith (readAuthority readUser readLiteral)
      NetUrl.readback_https (u := target request) readable accepted
    obtain ⟨_,_,readPath,readQuery⟩ := NetUrl.parse_stringWith_some _ NetUrl.readback_https read
    refine ⟨_,serveHTTP_valid valid,?_,url,read,readPath.trans samePath,readQuery.trans sameQuery⟩
    unfold NetUrl.URL.stringWith NetUrl.URL.hierarchy
    rw [samePath,plain.escape,target,ascii]
    simp [List.append_assoc]

end Preserved

end HttpRedirector

namespace Sample

/-- `GET /a%2Fb HTTP/1.1`. -/
def escapedSlash : Request := ⟨⟨"","","/a/b","/a%2Fb",""⟩,"example.com:80",[],"192.0.2.1:50000",false⟩

/-- The Location is `https://example.com/a/b`, which is another resource. -/
theorem escapedSlash_redirected :
    HttpRedirector.serveHTTP escapedSlash = .redirect 308 (octets "https://example.com/a/b") ∧
    escapedSlash.url.octets.escapedPath = octets "/a%2Fb" ∧
    ¬HttpRedirector.Preserves (fun _ => none) (fun _ => none) escapedSlash := by
  have replied : HttpRedirector.serveHTTP escapedSlash = .redirect 308 (octets "https://example.com/a/b") := by
    decide +kernel
  refine ⟨replied,by decide +kernel,?_⟩
  rintro ⟨location,replied',same,_⟩
  rw [replied] at replied'
  obtain rfl : octets "https://example.com/a/b" = location := by simpa using replied'
  exact absurd same (by decide +kernel)

/-- Spaces and query strings are no obstacle. -/
theorem spaced_preserved :
    HttpRedirector.Preserves (fun _ => none) (fun _ => none)
      ⟨⟨"","","/a b","","x=%2F&y=/?"⟩,"example.com",[],"192.0.2.1:50000",false⟩ :=
  (HttpRedirector.preserves_iff _ _ _ (by decide +kernel)).mpr
    ⟨⟨.inr (by decide +kernel),by decide +kernel⟩,by decide +kernel⟩

end Sample

end Centauri
