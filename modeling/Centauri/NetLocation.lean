import Centauri.NetUrl

/-! Where a Location sends a client: how `net/http` writes one, the parts that the generic syntax
of URIs finds in it, and the user, the host and the port that `net/url` reads off an authority. -/
namespace NetUrl

def atSign : UInt8 := 0x40
def bracket : UInt8 := 0x5B

def lowerhex (n : Nat) : UInt8 := UInt8.ofNat (if n < 10 then 0x30 + n else 0x61 + (n - 10))

/-- What `http.Redirect` does to a Location. -/
def hexEscapeNonASCII (s : Bytes) : Bytes :=
  s.flatMap fun b => if 0x80 ≤ b then [percent,lowerhex (b.toNat / 16),lowerhex (b.toNat % 16)] else [b]

/-- The parts of a reference in the generic syntax. Every text has them. -/
structure Reference where
  scheme : Option Bytes
  authority : Option Bytes
  path : Bytes
  query : Option Bytes
  fragment : Option Bytes
  deriving DecidableEq, Repr

namespace Reference

def splitScheme (text : Bytes) : Option Bytes × Bytes :=
  let name := text.takeWhile fun b => b != colon && b != slash
  match text.drop name.length with
  | b :: rest => if name ≠ [] ∧ b = colon then (some name,rest) else (none,text)
  | [] => (none,text)

def splitAuthority : Bytes → Option Bytes × Bytes
  | a :: b :: rest =>
    if a = slash ∧ b = slash then (some (before slash rest),rest.dropWhile (· != slash))
    else (none,a :: b :: rest)
  | text => (none,text)

/-- A fragment is cut off first and a query next. -/
def split (raw : Bytes) : Reference :=
  let text := before hash raw
  let (scheme,rest) := splitScheme (before question text)
  let (authority,path) := splitAuthority rest
  ⟨scheme,authority,path,if question ∈ text then some (after question text) else none,
    if hash ∈ raw then some (after hash raw) else none⟩

end Reference

section Authority

/- How `net/url` reads a user, and a host with a bracket. -/
variable (readUser readLiteral : Bytes → Option Bytes)

def validOptionalPort : Bytes → Bool
  | [] => true
  | b :: rest => b == colon && rest.all isDigit

/-- In a host only escapes of bytes beyond ASCII and of the percent sign are read. -/
def unescapeHost : Bytes → Option Bytes
  | [] => some []
  | [b] => if b = percent ∨ shouldEscapeHost b = true ∧ b < 0x80 then none else some [b]
  | [b,c] => if b = percent ∨ shouldEscapeHost b = true ∧ b < 0x80 then none else (unescapeHost [c]).map (b :: ·)
  | b :: c :: d :: rest =>
    if b = percent then do
      let high ← unhex c
      let low ← unhex d
      if high < 8 ∧ ¬(high = 2 ∧ low = 5) then none
      else (unescapeHost rest).map (UInt8.ofNat (16 * high + low) :: ·)
    else if shouldEscapeHost b = true ∧ b < 0x80 then none
    else (unescapeHost (c :: d :: rest)).map (b :: ·)

def parseHost (host : Bytes) : Option Bytes :=
  if bracket ∈ host then readLiteral host
  else if validOptionalPort (host.dropWhile (· != colon)) = false then none
  else unescapeHost host

/-- The user, if there is one, and the host with its port. The last `@` counts. -/
def parseAuthority (authority : Bytes) : Option (Option Bytes × Bytes) := do
  let host ← parseHost readLiteral (authority.reverse.takeWhile (· != atSign)).reverse
  if atSign ∈ authority then
    let user ← readUser ((authority.reverse.dropWhile (· != atSign)).drop 1).reverse
    return (some user,host)
  else return (none,host)

def port (host : Bytes) : Bytes :=
  let digits := (host.reverse.takeWhile (· != colon)).reverse
  if colon ∈ host ∧ validOptionalPort (colon :: digits) = true then digits else []

structure Origin where
  scheme : Bytes
  user : Option Bytes
  host : Bytes
  deriving DecidableEq, Repr

def parseOrigin (raw : Bytes) : Option Origin := do
  let _ ← parse (fun authority => (parseAuthority readUser readLiteral authority).map fun _ => "") raw
  let (scheme,rest) ← getScheme (before hash raw)
  match (Reference.splitAuthority (before question rest)).1 with
  | none => return ⟨scheme,none,[]⟩
  | some authority =>
    let (user,host) ← parseAuthority readUser readLiteral authority
    return ⟨scheme,user,host⟩

end Authority

section Escaping

theorem lowerhex_digit (small : n < 16) : lowerhex n < 0x80 ∧ lowerhex n ≠ hash ∧ isCTL (lowerhex n) = false := by
  have all : ∀ n : Fin 16, lowerhex n < 0x80 ∧ lowerhex n ≠ hash ∧ isCTL (lowerhex n) = false := by decide +kernel
  exact all ⟨n,small⟩

/-- The escaped bytes: those that were there and ASCII, and those of an escape. -/
theorem mem_hexEscapeNonASCII (member : b ∈ hexEscapeNonASCII s) :
    b < 0x80 ∧ (b ∈ s ∨ b ≠ hash ∧ isCTL b = false) := by
  obtain ⟨c,here,inside⟩ := List.mem_flatMap.mp member
  split at inside
  next wide =>
    have bound := c.toNat_lt
    simp only [List.mem_cons,List.not_mem_nil,or_false] at inside
    rcases inside with rfl | rfl | rfl
    · exact ⟨by decide,.inr (by decide)⟩
    · obtain ⟨narrow,digit⟩ := lowerhex_digit (n := c.toNat / 16) (by omega)
      exact ⟨narrow,.inr digit⟩
    · obtain ⟨narrow,digit⟩ := lowerhex_digit (n := c.toNat % 16) (Nat.mod_lt _ (by decide))
      exact ⟨narrow,.inr digit⟩
  next narrow =>
    rw [List.mem_singleton.mp inside]
    exact ⟨UInt8.not_le.mp narrow,.inl here⟩

theorem hexEscapeNonASCII_append (front rest : Bytes) :
    hexEscapeNonASCII (front ++ rest) = hexEscapeNonASCII front ++ hexEscapeNonASCII rest := List.flatMap_append

theorem hexEscapeNonASCII_eq_self : hexEscapeNonASCII s = s ↔ ∀ b ∈ s, b < 0x80 := by
  constructor
  · intro same b member
    rw [← same] at member
    exact (mem_hexEscapeNonASCII member).1
  · intro narrow
    induction s with
    | nil => rfl
    | cons b rest ih =>
      have here : ¬0x80 ≤ b := UInt8.not_le.mpr (narrow b List.mem_cons_self)
      have later := ih fun c member => narrow c (List.mem_cons_of_mem _ member)
      unfold hexEscapeNonASCII at later ⊢
      rw [List.flatMap_cons,if_neg here,later]
      rfl

theorem hexEscapeNonASCII_querySuffix (rawQuery : Bytes) :
    hexEscapeNonASCII (URL.querySuffix rawQuery) = URL.querySuffix (hexEscapeNonASCII rawQuery) := by
  cases rawQuery with
  | nil => rfl
  | cons b rest =>
    have some : hexEscapeNonASCII (b :: rest) ≠ [] := by
      unfold hexEscapeNonASCII
      rw [List.flatMap_cons]
      split <;> simp
    simp only [URL.querySuffix,ne_eq,reduceCtorEq,not_false_eq_true,if_true,if_pos some]
    exact hexEscapeNonASCII_append [question] (b :: rest)

theorem hierarchy_narrow (u : URL) (member : b ∈ URL.hierarchy authority u) : b < 0x80 := by
  have all : ∀ n : Fin 256, (UInt8.ofNat n = percent ∨ isUnreserved (UInt8.ofNat n) = true ∨
      shouldEscapeHost (UInt8.ofNat n) = false ∨ validByte (UInt8.ofNat n) = true) →
      UInt8.ofNat n < 0x80 := by decide +kernel
  have here := all ⟨b.toNat,b.toNat_lt⟩
  rw [UInt8.ofNat_toNat] at here
  simp only [URL.hierarchy,List.mem_cons,List.mem_append] at member
  rcases member with rfl | rfl | host | path
  · decide
  · decide
  · rcases mem_escapeWith host with escaped | unreserved | spared
    · exact here (.inl escaped)
    · exact here (.inr (.inl unreserved))
    · exact here (.inr (.inr (.inl spared)))
  · exact here (.inr (.inr (.inr (List.all_eq_true.mp (URL.valid_rooted u) _ path))))

/-- Only a query can have bytes beyond ASCII. -/
theorem hexEscapeNonASCII_stringWith (narrow : ∀ b ∈ scheme, b < 0x80) (authority : Bytes) (u : URL) :
    hexEscapeNonASCII (u.stringWith scheme authority) =
      URL.stringWith scheme authority { u with rawQuery := hexEscapeNonASCII u.rawQuery } := by
  have front : hexEscapeNonASCII (scheme ++ [colon]) = scheme ++ [colon] := by
    rw [hexEscapeNonASCII_eq_self]
    intro b member
    rcases List.mem_append.mp member with inside | last
    · exact narrow b inside
    · rw [List.mem_singleton.mp last]
      decide
  have middle : hexEscapeNonASCII (URL.hierarchy authority u) = URL.hierarchy authority u :=
    hexEscapeNonASCII_eq_self.mpr fun b member => hierarchy_narrow u member
  rw [URL.stringWith,hexEscapeNonASCII_append,front,hexEscapeNonASCII_append,middle,hexEscapeNonASCII_querySuffix]
  rfl

/-- A query comes back from a Location just if it is ASCII without control bytes and hashes. -/
theorem query_kept_iff (rawQuery : Bytes) :
    Readable (hexEscapeNonASCII rawQuery) ∧ before hash (hexEscapeNonASCII rawQuery) = rawQuery ↔
      ∀ b ∈ rawQuery, b < 0x80 ∧ b ≠ hash ∧ isCTL b = false := by
  constructor
  · rintro ⟨readable,same⟩ b member
    have clean := readable.1
    rw [same,List.any_eq_false] at clean
    have here := member
    rw [← same] at here
    refine ⟨(mem_hexEscapeNonASCII ((List.takeWhile_sublist _).subset here)).1,?_,by simpa using clean b member⟩
    rintro rfl
    exact not_mem_before _ _ here
  · intro plain
    have narrow : hexEscapeNonASCII rawQuery = rawQuery :=
      hexEscapeNonASCII_eq_self.mpr fun b member => (plain b member).1
    have free : hash ∉ rawQuery := fun member => (plain hash member).2.1 rfl
    rw [narrow]
    refine ⟨⟨?_,?_⟩,before_free free⟩
    · rw [before_free free,List.any_eq_false]
      intro b member
      rw [(plain b member).2.2]
      exact Bool.false_ne_true
    · rw [after_free free]
      rfl

end Escaping

section Parts

open URL

theorem splitScheme_written (named : scheme ≠ []) (plain : ∀ b ∈ scheme, b ≠ colon ∧ b ≠ slash) (rest : Bytes) :
    Reference.splitScheme (scheme ++ colon :: rest) = (some scheme,rest) := by
  have name : (scheme ++ colon :: rest).takeWhile (fun b => b != colon && b != slash) = scheme := by
    rw [List.takeWhile_append_of_pos]
    · simp
    · intro b member
      simpa using plain b member
  unfold Reference.splitScheme
  dsimp only
  rw [name,List.drop_left]
  simp [named]

theorem splitAuthority_written (authority : Bytes) (u : URL) :
    Reference.splitAuthority (hierarchy authority u) = (some (escapeHost authority),rooted u.escapedPath) := by
  have hostEnd : ∀ b ∈ escapeHost authority, b ≠ slash := fun b member => (escapeHost_plain member).2.2.1
  have path : before slash (rooted u.escapedPath) = [] ∧
      (rooted u.escapedPath).dropWhile (· != slash) = rooted u.escapedPath := by
    rcases rooted_head u.escapedPath with empty | ⟨rest,eq⟩
    · rw [empty]
      exact ⟨rfl,rfl⟩
    · rw [eq]
      exact ⟨before_self _ _,by simp⟩
  unfold hierarchy Reference.splitAuthority
  dsimp only
  rw [if_pos ⟨rfl,rfl⟩,before_append _ hostEnd,path.1,List.append_nil,
    List.dropWhile_append_of_pos fun b member => bne_iff_ne.mpr (hostEnd b member),path.2]

/-- Nothing in a path or a query moves the end of the authority. -/
theorem split_stringWith (scheme : Bytes) (named : scheme ≠ [])
    (plain : ∀ b ∈ scheme, b ≠ colon ∧ b ≠ slash ∧ b ≠ question ∧ b ≠ hash) (authority : Bytes) (u : URL) :
    let parts := Reference.split (u.stringWith scheme authority)
    parts.scheme = some scheme ∧ parts.authority = some (escapeHost authority) ∧
      parts.path = rooted u.escapedPath := by
  have inside : ∀ b ∈ (scheme ++ [colon]) ++ hierarchy authority u, b ≠ hash ∧ b ≠ question := by
    intro b member
    rw [List.mem_append,List.mem_append,List.mem_singleton] at member
    rcases member with (letter | rfl) | later
    · exact ⟨(plain b letter).2.2.2,(plain b letter).2.2.1⟩
    · decide
    · exact ⟨(hierarchy_plain u later).1,(hierarchy_plain u later).2.1⟩
  obtain ⟨_,start,_,_⟩ := before_querySuffix u.rawQuery
  have text : before question (before hash (u.stringWith scheme authority)) =
      scheme ++ colon :: hierarchy authority u := by
    rw [stringWith,← List.append_assoc,before_append _ fun b member => (inside b member).1,
      before_append _ fun b member => (inside b member).2,start,List.append_nil,List.append_assoc]
    rfl
  unfold Reference.split
  dsimp only
  rw [text,splitScheme_written named (fun b member => ⟨(plain b member).1,(plain b member).2.1⟩)]
  dsimp only
  rw [splitAuthority_written]
  exact ⟨rfl,rfl,rfl⟩

end Parts

section Origins

open URL

variable (readUser readLiteral : Bytes → Option Bytes)

def PlainHost (name : Bytes) : Prop :=
  ∀ b ∈ name, b ≠ atSign ∧ b ≠ colon ∧ b ≠ bracket ∧ b ≠ percent ∧ shouldEscapeHost b = false

theorem PlainHost.tail (plain : PlainHost (b :: name)) : PlainHost name :=
  fun c member => plain c (List.mem_cons_of_mem _ member)

theorem PlainHost.escape (plain : PlainHost name) : escapeHost name = name := by
  induction name with
  | nil => rfl
  | cons b rest ih =>
    obtain ⟨_,_,_,_,spared⟩ := plain b List.mem_cons_self
    have later := ih plain.tail
    unfold escapeHost escapeWith at later ⊢
    rw [List.flatMap_cons,spared,later]
    rfl

theorem PlainHost.unescape (plain : PlainHost name) : unescapeHost name = some name := by
  induction name with
  | nil => rfl
  | cons b rest ih =>
    obtain ⟨_,_,_,literal,spared⟩ := plain b List.mem_cons_self
    have later := ih plain.tail
    match rest with
    | [] => simp [unescapeHost,literal,spared]
    | [c] => simp [unescapeHost,literal,spared] at later ⊢; exact later
    | c :: d :: rest =>
      rw [unescapeHost,if_neg literal,if_neg (by simp [spared]),later]
      rfl

/-- All of it is a host then, without a user and a port. -/
theorem PlainHost.parse (plain : PlainHost name) :
    parseAuthority readUser readLiteral name = some (none,name) ∧ port name = [] := by
  have free : atSign ∉ name ∧ colon ∉ name ∧ bracket ∉ name :=
    ⟨fun member => (plain _ member).1 rfl,fun member => (plain _ member).2.1 rfl,
      fun member => (plain _ member).2.2.1 rfl⟩
  have whole : (name.reverse.takeWhile (· != atSign)).reverse = name := by
    rw [List.takeWhile_eq_self_iff.mpr,List.reverse_reverse]
    intro b member
    exact bne_iff_ne.mpr (plain b (List.mem_reverse.mp member)).1
  have unported : name.dropWhile (· != colon) = [] := by
    rw [List.dropWhile_eq_nil_iff]
    intro b member
    exact bne_iff_ne.mpr (plain b member).2.1
  constructor
  · unfold parseAuthority parseHost
    rw [whole,if_neg free.2.2,unported,plain.unescape,if_neg (by decide),Option.bind_eq_bind,Option.bind_some,
      if_neg free.1]
    rfl
  · unfold port
    dsimp only
    rw [if_neg (fun ported => free.2.1 ported.1)]

variable {readUser readLiteral}

/-- Whoever reads a URL with such a host finds this host. -/
theorem parseOrigin_stringWith (known : Readback scheme) (plain : PlainHost name) (u : URL) :
    parseOrigin readUser readLiteral (u.stringWith scheme name) =
      (parse (fun authority => (parseAuthority readUser readLiteral authority).map fun _ => "")
        (u.stringWith scheme name)).map fun _ => ⟨scheme,none,name⟩ := by
  have front : ∀ b ∈ scheme ++ [colon], b ≠ hash := fun b member => (known.plain b member).1
  have middle : ∀ b ∈ hierarchy name u, b ≠ hash ∧ b ≠ question := fun b member =>
    ⟨(hierarchy_plain u member).1,(hierarchy_plain u member).2.1⟩
  obtain ⟨_,start,_,_⟩ := before_querySuffix u.rawQuery
  have text : getScheme (before hash (u.stringWith scheme name)) =
      some (scheme,hierarchy name u ++ before hash (querySuffix u.rawQuery)) := by
    rw [stringWith,before_append _ front,before_append _ fun b member => (middle b member).1,known.read]
  have address : Reference.splitAuthority
      (before question (hierarchy name u ++ before hash (querySuffix u.rawQuery))) =
      (some name,rooted u.escapedPath) := by
    rw [before_append _ fun b member => (middle b member).2,start,List.append_nil,splitAuthority_written,plain.escape]
  unfold parseOrigin
  rw [text]
  simp only [Option.bind_eq_bind,Option.bind_some,address,(plain.parse readUser readLiteral).1,Option.pure_def]
  cases parse (fun authority => (parseAuthority readUser readLiteral authority).map fun _ => "")
    (u.stringWith scheme name) <;> rfl

theorem exists_parseOrigin (known : Readback scheme) (plain : PlainHost name) {u : URL}
    (readable : Readable u.rawQuery) :
    parseOrigin readUser readLiteral (u.stringWith scheme name) = some ⟨scheme,none,name⟩ := by
  have accepted : ((parseAuthority readUser readLiteral (escapeHost name)).map fun _ => "") = some "" := by
    rw [plain.escape,(plain.parse readUser readLiteral).1]
    rfl
  obtain ⟨url,read⟩ := exists_parse_stringWith
    (fun authority => (parseAuthority readUser readLiteral authority).map fun _ => "") known readable accepted
  rw [parseOrigin_stringWith known plain,read,Option.map_some]

end Origins

end NetUrl
