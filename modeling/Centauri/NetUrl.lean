import Mathlib.Data.List.TakeWhile

/-! Paths and queries of `net/url`, over bytes: how a URL is written, and what is read back. -/
namespace NetUrl

abbrev Bytes := List UInt8

def percent : UInt8 := 0x25
def slash : UInt8 := 0x2F
def colon : UInt8 := 0x3A
def question : UInt8 := 0x3F
def hash : UInt8 := 0x23
def star : UInt8 := 0x2A

def isAlpha (b : UInt8) : Bool := (0x41 ≤ b && b ≤ 0x5A) || (0x61 ≤ b && b ≤ 0x7A)

def isDigit (b : UInt8) : Bool := 0x30 ≤ b && b ≤ 0x39

/-- `-_.~`, which with letters and digits are escaped nowhere. -/
def isUnreserved (b : UInt8) : Bool := isAlpha b || isDigit b || [0x2D,0x5F,0x2E,0x7E].contains b

/-- `shouldEscape` in a path, which spares `$&+,/:;=@` too. -/
def shouldEscape (b : UInt8) : Bool :=
  !(isUnreserved b || [0x24,0x26,0x2B,0x2C,0x2F,0x3A,0x3B,0x3D,0x40].contains b)

/-- `shouldEscape` in a host, which spares these but for `/` and `@`, and `!'()*[]<>"`. -/
def shouldEscapeHost (b : UInt8) : Bool :=
  let spared : Bytes := [0x21,0x24,0x26,0x27,0x28,0x29,0x2A,0x2B,0x2C,0x3B,0x3D,0x3A,0x5B,0x5D,0x3C,0x3E,0x22]
  !(isUnreserved b || spared.contains b)

def upperhex (n : Nat) : UInt8 := UInt8.ofNat (if n < 10 then 0x30 + n else 0x41 + (n - 10))

def unhex (b : UInt8) : Option Nat :=
  if isDigit b then some (b.toNat - 0x30)
  else if 0x41 ≤ b && b ≤ 0x46 then some (b.toNat - 0x41 + 10)
  else if 0x61 ≤ b && b ≤ 0x66 then some (b.toNat - 0x61 + 10)
  else none

def escapeByte (b : UInt8) : Bytes := [percent,upperhex (b.toNat / 16),upperhex (b.toNat % 16)]

def escapeWith (should : UInt8 → Bool) (s : Bytes) : Bytes :=
  s.flatMap fun b => if should b then escapeByte b else [b]

def escape (s : Bytes) : Bytes := escapeWith shouldEscape s

def escapeHost (s : Bytes) : Bytes := escapeWith shouldEscapeHost s

/-- `none` for an escape without its two digits. -/
def unescape : Bytes → Option Bytes
  | [] => some []
  | [b] => if b = percent then none else some [b]
  | [b,c] => if b = percent then none else (unescape [c]).map (b :: ·)
  | b :: c :: d :: rest =>
    if b = percent then do
      let high ← unhex c
      let low ← unhex d
      (unescape rest).map (UInt8.ofNat (16 * high + low) :: ·)
    else (unescape (c :: d :: rest)).map (b :: ·)

/-- What may stand in an escaped path: with `!'()*[]` and the percent sign. -/
def validByte (b : UInt8) : Bool := [0x21,0x27,0x28,0x29,0x2A,0x5B,0x5D,0x25].contains b || !shouldEscape b

def validEncoded (s : Bytes) : Bool := s.all validByte

/-- The text before the first occurrence of a byte, and the text after it. -/
def before (sep : UInt8) (s : Bytes) : Bytes := s.takeWhile (· != sep)

def after (sep : UInt8) (s : Bytes) : Bytes := (s.dropWhile (· != sep)).drop 1

/-- As much of a URL as is needed of those with the scheme `http` or none. `rawPath` is empty
where the path is written in the usual way. -/
structure URL where
  host : String
  path : Bytes
  rawPath : Bytes
  rawQuery : Bytes
  deriving DecidableEq, Repr

namespace URL

def escapedPath (u : URL) : Bytes :=
  if u.rawPath ≠ [] ∧ validEncoded u.rawPath = true ∧ unescape u.rawPath = some u.path then u.rawPath
  else if u.path = [star] then [star]
  else escape u.path

def setPath (host : String) (p rawQuery : Bytes) : Option URL :=
  (unescape p).map fun path => ⟨host,path,if escape path = p then [] else p,rawQuery⟩

def rooted (path : Bytes) : Bytes := if path ≠ [] ∧ path.head? ≠ some slash then slash :: path else path

def Rooted (path : Bytes) : Prop := path = [] ∨ path.head? = some slash

def querySuffix (rawQuery : Bytes) : Bytes := if rawQuery ≠ [] then question :: rawQuery else []

def hierarchy (authority : Bytes) (u : URL) : Bytes :=
  slash :: slash :: (escapeHost authority ++ rooted u.escapedPath)

def http : Bytes := [0x68,0x74,0x74,0x70]

def string (authority : Bytes) (u : URL) : Bytes :=
  (http ++ [colon]) ++ (hierarchy authority u ++ querySuffix u.rawQuery)

def https : Bytes := [0x68,0x74,0x74,0x70,0x73]

def stringWith (scheme authority : Bytes) (u : URL) : Bytes :=
  (scheme ++ [colon]) ++ (hierarchy authority u ++ querySuffix u.rawQuery)

end URL

def isCTL (b : UInt8) : Bool := b < 0x20 || b == 0x7F

/-- The scheme and what follows it; `none` for a missing one before a colon. -/
def getScheme (raw : Bytes) : Option (Bytes × Bytes) :=
  let schemeByte (b : UInt8) : Bool := isAlpha b || isDigit b || [0x2B,0x2D,0x2E].contains b
  match raw with
  | [] => some ([],[])
  | b :: _ =>
    if b = colon then none
    else if isAlpha b then
      match raw.dropWhile schemeByte with
      | c :: rest => if c = colon then some (raw.takeWhile schemeByte,rest) else some ([],raw)
      | [] => some ([],raw)
    else some ([],raw)

section Parse

/- `readAuthority` reads the host off an authority, `none` for one that is malformed. -/
variable (readAuthority : Bytes → Option String)

/-- What follows the scheme, if it starts with a slash. -/
def parseRooted (scheme : Bool) (text : Bytes) : Option URL :=
  let rawQuery := after question text
  match before question text with
  | a :: b :: rest =>
    if a = slash ∧ b = slash ∧ (scheme = true ∨ rest.head? ≠ some slash) then do
      let host ← readAuthority (before slash rest)
      URL.setPath host (rest.dropWhile (· != slash)) rawQuery
    else URL.setPath "" (a :: b :: rest) rawQuery
  | rest => URL.setPath "" rest rawQuery

/-- `url.Parse` on a text with a slash at its front or after its scheme. -/
def parse (raw : Bytes) : Option URL := do
  let text := before hash raw
  if text.any isCTL then none
  else
    let (scheme,rest) ← getScheme text
    let url ← parseRooted readAuthority (scheme ≠ []) rest
    let _ ← unescape (after hash raw)
    return url

/-- A raw query as a parser takes it after a question mark: a fragment may follow it. -/
def Readable (rawQuery : Bytes) : Prop :=
  (before hash rawQuery).any isCTL = false ∧ (unescape (after hash rawQuery)).isSome = true

end Parse

/-- What is left from a separator on. -/
theorem dropWhile_cases (sep : UInt8) (s : Bytes) :
    s.dropWhile (· != sep) = [] ∨ ∃ rest, s.dropWhile (· != sep) = sep :: rest := by
  cases eq : s.dropWhile (· != sep) with
  | nil => exact .inl rfl
  | cons b rest =>
    have found := List.head_dropWhile_not (· != sep) (l := s) (by simp [eq])
    have same : b = sep := by simpa [eq] using found
    exact .inr ⟨rest,by rw [same]⟩

section Escapes

theorem unhex_upperhex (small : n < 16) : unhex (upperhex n) = some n := by
  have all : ∀ n : Fin 16, unhex (upperhex n) = some n.val := by decide +kernel
  exact all ⟨n,small⟩

/-- What the digits of an escape are. -/
theorem upperhex_unreserved (small : n < 16) : isUnreserved (upperhex n) = true := by
  have all : ∀ n : Fin 16, isUnreserved (upperhex n) = true := by decide +kernel
  exact all ⟨n,small⟩

theorem unescape_cons (plain : b ≠ percent) (rest : Bytes) :
    unescape (b :: rest) = (unescape rest).map (b :: ·) := by
  match rest with
  | [] => simp [unescape,plain]
  | [c] => simp [unescape,plain]
  | c :: d :: rest => simp [unescape,plain]

theorem unescape_slash (read : unescape (slash :: s) = some path) :
    ∃ rest, unescape s = some rest ∧ path = slash :: rest := by
  rw [unescape_cons (by decide)] at read
  obtain ⟨rest,read,eq⟩ := Option.map_eq_some_iff.mp read
  exact ⟨rest,read,eq.symm⟩

theorem unescape_escapeByte (b : UInt8) (rest : Bytes) :
    unescape (escapeByte b ++ rest) = (unescape rest).map (b :: ·) := by
  have bound := b.toNat_lt
  have high : b.toNat / 16 < 16 := by omega
  have low : b.toNat % 16 < 16 := Nat.mod_lt _ (by decide)
  have whole : UInt8.ofNat (16 * (b.toNat / 16) + b.toNat % 16) = b := by
    rw [Nat.div_add_mod,UInt8.ofNat_toNat]
  simp only [escapeByte,List.cons_append,List.nil_append,unescape,if_true,unhex_upperhex high,
    unhex_upperhex low,Option.bind_eq_bind,Option.bind_some,whole]

/-- What is escaped is read back. -/
theorem unescape_escape (s : Bytes) : unescape (escape s) = some s := by
  induction s with
  | nil => rfl
  | cons b rest ih =>
    unfold escape escapeWith at ih ⊢
    rw [List.flatMap_cons]
    split
    · rw [unescape_escapeByte,ih,Option.map_some]
    next spared =>
      have plain : b ≠ percent := by
        rintro rfl
        exact spared (by decide)
      rw [List.singleton_append,unescape_cons plain,ih,Option.map_some]

def joined (front rest : Option Bytes) : Option Bytes :=
  front.bind fun x => rest.map fun y => x ++ slash :: y

theorem joined_cons (b : UInt8) (front rest : Option Bytes) :
    (joined front rest).map (b :: ·) = joined (front.map (b :: ·)) rest := by
  cases front with
  | none => rfl
  | some x => cases rest <;> rfl

/-- A slash ends every escape before it. -/
theorem unescape_append_slash (front rest : Bytes) :
    unescape (front ++ slash :: rest) = joined (unescape front) (unescape rest) := by
  have plain : slash ≠ percent := by decide
  have digit : unhex slash = none := by decide
  -- On the length of the front, since an escape takes three bytes of it.
  induction length : front.length using Nat.strongRecOn generalizing front with
  | ind n ih =>
    match front with
    | [] =>
      rw [List.nil_append,unescape_cons plain]
      cases unescape rest <;> rfl
    | b :: tail =>
      by_cases escaped : b = percent
      · subst escaped
        match tail with
        | [] => cases rest <;> simp [unescape,digit,joined]
        | [c] => simp [unescape,digit,joined]
        | c :: d :: tail =>
          have later := ih tail.length (by simp at length; omega) tail rfl
          simp only [List.cons_append,unescape,if_true,Option.bind_eq_bind,later]
          cases unhex c with
          | none => rfl
          | some high =>
            cases unhex d with
            | none => rfl
            | some low => exact joined_cons _ _ _
      · have later := ih tail.length (by simp at length; omega) tail rfl
        rw [List.cons_append,unescape_cons escaped,unescape_cons escaped,later,joined_cons]

/-- A path is not the escaped form of one behind an authority. -/
theorem escape_ne_authority (path : unescape (rest.dropWhile (· != slash)) = some p) (nonempty : p ≠ []) :
    escape p ≠ slash :: slash :: rest := by
  intro eq
  have back := unescape_escape p
  rw [eq,← List.takeWhile_append_dropWhile (p := (· != slash)) (l := rest)] at back
  rcases dropWhile_cases slash rest with none | ⟨left,tail⟩
  · rw [none] at path
    cases path
    exact nonempty rfl
  · rw [tail] at path back
    obtain ⟨text,read,rfl⟩ := unescape_slash path
    rw [← List.cons_append,← List.cons_append,unescape_append_slash,read] at back
    obtain ⟨front,unescaped,same⟩ := Option.bind_eq_some_iff.mp back
    obtain ⟨more,_,rfl⟩ := unescape_slash unescaped
    have := congrArg List.length (Option.some.inj same)
    simp at this
    omega

theorem mem_escapeWith {should : UInt8 → Bool} (member : b ∈ escapeWith should s) :
    b = percent ∨ isUnreserved b = true ∨ should b = false := by
  obtain ⟨c,_,inside⟩ := List.mem_flatMap.mp member
  split at inside
  · have bound := c.toNat_lt
    simp only [escapeByte,List.mem_cons,List.not_mem_nil,or_false] at inside
    rcases inside with rfl | rfl | rfl
    · exact .inl rfl
    · exact .inr (.inl (upperhex_unreserved (by omega)))
    · exact .inr (.inl (upperhex_unreserved (Nat.mod_lt _ (by decide))))
  next spared =>
    rw [List.mem_singleton.mp inside]
    exact .inr (.inr (Bool.eq_false_iff.mpr spared))

/-- The control bytes are those below a space, and DEL. -/
theorem isCTL_cases {p : UInt8 → Prop} (low : ∀ n : Fin 32, p (UInt8.ofNat n)) (del : p 0x7F)
    (control : isCTL b = true) : p b := by
  simp only [isCTL,Bool.or_eq_true,decide_eq_true_eq,beq_iff_eq] at control
  rcases control with below | rfl
  · have here := low ⟨b.toNat,UInt8.lt_iff_toNat_lt.mp below⟩
    rwa [UInt8.ofNat_toNat] at here
  · exact del

/-- The bytes that mean something to a parser are in no escaped path. -/
theorem validByte_plain (valid : validByte b = true) :
    b ≠ hash ∧ b ≠ question ∧ isCTL b = false := by
  refine ⟨?_,?_,?_⟩
  · rintro rfl
    exact absurd valid (by decide)
  · rintro rfl
    exact absurd valid (by decide)
  · rw [Bool.eq_false_iff]
    intro control
    exact isCTL_cases (p := fun b => validByte b ≠ true) (by decide +kernel) (by decide) control valid

theorem valid_escape (s : Bytes) : validEncoded (escape s) = true := by
  refine List.all_eq_true.mpr fun b member => ?_
  rcases mem_escapeWith member with rfl | unreserved | spared
  · decide
  · simp [validByte,shouldEscape,unreserved]
  · simp [validByte,spared]

/-- Nor does a host have them once it is escaped, nor a slash. -/
theorem escapeHost_plain (member : b ∈ escapeHost s) :
    b ≠ hash ∧ b ≠ question ∧ b ≠ slash ∧ isCTL b = false := by
  have written := mem_escapeWith member
  refine ⟨?_,?_,?_,?_⟩
  · rintro rfl
    exact absurd written (by decide)
  · rintro rfl
    exact absurd written (by decide)
  · rintro rfl
    exact absurd written (by decide)
  · rw [Bool.eq_false_iff]
    intro control
    have none := isCTL_cases (p := fun b => ¬(b = percent ∨ isUnreserved b = true ∨ shouldEscapeHost b = false))
      (by decide +kernel) (by decide) control
    exact none written

end Escapes

section Cuts

variable {sep : UInt8}

theorem before_append (front : Bytes) (free : ∀ b ∈ front, b ≠ sep) (rest : Bytes) :
    before sep (front ++ rest) = front ++ before sep rest :=
  List.takeWhile_append_of_pos fun b member => bne_iff_ne.mpr (free b member)

theorem after_append (front : Bytes) (free : ∀ b ∈ front, b ≠ sep) (rest : Bytes) :
    after sep (front ++ rest) = after sep rest := by
  rw [after,List.dropWhile_append_of_pos fun b member => bne_iff_ne.mpr (free b member),after]

@[simp] theorem before_self (sep : UInt8) (rest : Bytes) : before sep (sep :: rest) = [] := by simp [before]

@[simp] theorem after_self (sep : UInt8) (rest : Bytes) : after sep (sep :: rest) = rest := by simp [after]

@[simp] theorem before_nil (sep : UInt8) : before sep [] = [] := rfl

@[simp] theorem after_nil (sep : UInt8) : after sep [] = [] := rfl

theorem before_cons (other : b ≠ sep) (rest : Bytes) : before sep (b :: rest) = b :: before sep rest :=
  before_append [b] (by simpa using other) rest

theorem after_cons (other : b ≠ sep) (rest : Bytes) : after sep (b :: rest) = after sep rest :=
  after_append [b] (by simpa using other) rest

theorem before_free (free : sep ∉ s) : before sep s = s := by
  have others : ∀ b ∈ s, b ≠ sep := fun b member eq => free (eq ▸ member)
  simpa using before_append s others []

theorem after_free (free : sep ∉ s) : after sep s = [] := by
  have others : ∀ b ∈ s, b ≠ sep := fun b member eq => free (eq ▸ member)
  simpa using after_append s others []

theorem not_mem_before (sep : UInt8) (s : Bytes) : sep ∉ before sep s := by
  intro member
  have := List.mem_takeWhile_imp member
  simp at this

theorem mem_of_mem_after (member : b ∈ after sep s) : b ∈ s :=
  (List.dropWhile_sublist _).subset (List.mem_of_mem_drop member)

theorem mem_cut (sep : UInt8) (member : b ∈ s) : b ∈ before sep s ∨ b = sep ∨ b ∈ after sep s := by
  rw [← List.takeWhile_append_dropWhile (p := (· != sep)) (l := s),List.mem_append] at member
  refine member.imp_right fun later => ?_
  unfold after
  rcases dropWhile_cases sep s with eq | ⟨rest,eq⟩
  · rw [eq] at later
    cases later
  · rw [eq] at later ⊢
    exact List.mem_cons.mp later

end Cuts

namespace URL

theorem unescape_escapedPath (u : URL) : unescape u.escapedPath = some u.path := by
  unfold escapedPath
  split
  next raw => exact raw.2.2
  split
  next root =>
    rw [root]
    decide
  · exact unescape_escape u.path

theorem valid_escapedPath (u : URL) : validEncoded u.escapedPath = true := by
  unfold escapedPath
  split
  next raw => exact raw.2.1
  split
  · decide
  · exact valid_escape u.path

theorem Rooted.unescape (root : Rooted p) (read : NetUrl.unescape p = some text) : Rooted text := by
  rcases root with rfl | head
  · cases read
    exact .inl rfl
  · obtain ⟨rest,rfl⟩ := List.head?_eq_some_iff.mp head
    obtain ⟨_,_,rfl⟩ := unescape_slash read
    exact .inr rfl

theorem rooted_dropWhile (s : Bytes) : Rooted (s.dropWhile (· != slash)) := by
  rcases dropWhile_cases slash s with eq | ⟨rest,eq⟩
  · exact .inl eq
  · rw [eq]
    exact .inr rfl

theorem not_rooted_star : ¬Rooted [star] := by
  unfold Rooted
  decide

theorem rooted_eq_self {p : Bytes} : rooted p = p ↔ Rooted p := by
  cases p with
  | nil => exact ⟨fun _ => .inl rfl,fun _ => rfl⟩
  | cons b rest => simp [rooted,Rooted]

theorem rooted_head (path : Bytes) : rooted path = [] ∨ ∃ rest, rooted path = slash :: rest := by
  unfold rooted
  split
  next unrooted => exact .inr ⟨path,rfl⟩
  next rooted =>
    cases path with
    | nil => exact .inl rfl
    | cons b rest =>
      have head : b = slash := by simpa using rooted
      exact .inr ⟨rest,by rw [head]⟩

theorem rooted_rooted (path : Bytes) : Rooted (rooted path) := by
  rcases rooted_head path with empty | ⟨rest,eq⟩
  · exact .inl empty
  · rw [eq]
    exact .inr rfl

theorem unescape_rooted (u : URL) : (unescape (rooted u.escapedPath)).isSome = true := by
  unfold rooted
  split
  · rw [unescape_cons (by decide),unescape_escapedPath]
    rfl
  · rw [unescape_escapedPath]
    rfl

theorem valid_rooted (u : URL) : validEncoded (rooted u.escapedPath) = true := by
  unfold rooted
  split
  · rw [validEncoded,List.all_cons,← validEncoded,valid_escapedPath]
    decide
  · exact valid_escapedPath u

/-- No byte before the query means anything to a parser. -/
theorem hierarchy_plain (u : URL) (member : b ∈ hierarchy authority u) :
    b ≠ hash ∧ b ≠ question ∧ isCTL b = false := by
  simp only [hierarchy,List.mem_cons,List.mem_append] at member
  rcases member with rfl | rfl | host | path
  · decide
  · decide
  · obtain ⟨hash,question,_,printable⟩ := escapeHost_plain host
    exact ⟨hash,question,printable⟩
  · exact validByte_plain (List.all_eq_true.mp (valid_rooted u) _ path)

/-- The text from the question mark on, without the fragment that a parser finds in it. -/
theorem before_querySuffix (rawQuery : Bytes) :
    let tail := before hash (querySuffix rawQuery)
    tail.any isCTL = (before hash rawQuery).any isCTL ∧ before question tail = [] ∧
      after question tail = before hash rawQuery ∧ after hash (querySuffix rawQuery) = after hash rawQuery := by
  have mark : question ≠ hash := by decide
  have printable : isCTL question = false := by decide
  cases rawQuery with
  | nil => exact ⟨rfl,rfl,rfl,rfl⟩
  | cons b rest => simp [querySuffix,before_cons mark,after_cons mark,printable]

end URL

section Reading

variable (readAuthority : Bytes → Option String)

open URL

/-- A scheme that is read back from the text that starts with it. -/
structure Readback (scheme : Bytes) : Prop where
  named : scheme ≠ []
  plain : ∀ b ∈ scheme ++ [colon], b ≠ hash ∧ isCTL b = false
  read : ∀ rest, getScheme (scheme ++ [colon] ++ rest) = some (scheme,rest)

theorem readback_http : Readback http := ⟨by decide,by decide +kernel,fun _ => rfl⟩

theorem readback_https : Readback https := ⟨by decide,by decide +kernel,fun _ => rfl⟩

theorem getScheme_slash (rest : Bytes) : getScheme (slash :: rest) = some ([],slash :: rest) := rfl

/-- What follows the scheme of a URL as it is written. -/
theorem parseRooted_written (authority : Bytes) (u : URL) (start : before question tail = []) :
    parseRooted readAuthority true (hierarchy authority u ++ tail) =
      (readAuthority (escapeHost authority)).bind fun host =>
        setPath host (rooted u.escapedPath) (after question tail) := by
  have plain : ∀ b ∈ hierarchy authority u, b ≠ question := fun b member => (hierarchy_plain u member).2.1
  have hostEnd : ∀ b ∈ escapeHost authority, b ≠ slash := fun b member => (escapeHost_plain member).2.2.1
  have path : (rooted u.escapedPath).dropWhile (· != slash) = rooted u.escapedPath ∧
      before slash (rooted u.escapedPath) = [] := by
    rcases rooted_head u.escapedPath with empty | ⟨rest,eq⟩
    · rw [empty]
      exact ⟨rfl,rfl⟩
    · rw [eq]
      exact ⟨by simp,before_self _ _⟩
  unfold parseRooted
  rw [before_append _ plain,after_append _ plain,start,List.append_nil]
  unfold hierarchy
  dsimp only
  rw [if_pos ⟨rfl,rfl,.inl rfl⟩,before_append _ hostEnd,path.2,List.append_nil,
    List.dropWhile_append_of_pos fun b member => bne_iff_ne.mpr (hostEnd b member),path.1]
  rfl

/-- What is read of a URL that was written: everything but the part of the query from a hash
on, which has to be a fragment. -/
theorem parse_stringWith (known : Readback scheme) (authority : Bytes) (u : URL) :
    parse readAuthority (u.stringWith scheme authority) =
      if (before hash u.rawQuery).any isCTL then none
      else (readAuthority (escapeHost authority)).bind fun host =>
        (setPath host (rooted u.escapedPath) (before hash u.rawQuery)).bind fun url =>
          (unescape (after hash u.rawQuery)).map fun _ => url := by
  have plain : ∀ b ∈ hierarchy authority u, b ≠ hash := fun b member => (hierarchy_plain u member).1
  have printable : (hierarchy authority u).any isCTL = false := by
    rw [List.any_eq_false]
    intro b member
    rw [(hierarchy_plain u member).2.2]
    exact Bool.false_ne_true
  have front : ∀ b ∈ scheme ++ [colon], b ≠ hash := fun b member => (known.plain b member).1
  have letters : (scheme ++ [colon]).any isCTL = false := by
    rw [List.any_eq_false]
    intro b member
    rw [(known.plain b member).2]
    exact Bool.false_ne_true
  obtain ⟨controls,start,query,fragment⟩ := before_querySuffix u.rawQuery
  have text : before hash (u.stringWith scheme authority) =
      (scheme ++ [colon]) ++ (hierarchy authority u ++ before hash (querySuffix u.rawQuery)) := by
    rw [stringWith,before_append _ front,before_append _ plain]
  have cut : after hash (u.stringWith scheme authority) = after hash u.rawQuery := by
    rw [stringWith,after_append _ front,after_append _ plain,fragment]
  have clean : (before hash (u.stringWith scheme authority)).any isCTL = (before hash u.rawQuery).any isCTL := by
    rw [text,List.any_append,letters,List.any_append,printable,controls]
    rfl
  unfold parse
  dsimp only
  rw [clean,cut,text,known.read]
  split
  · rfl
  · have present : decide (scheme ≠ []) = true := decide_eq_true known.named
    change (parseRooted readAuthority (decide (scheme ≠ [])) _).bind _ = _
    rw [present,parseRooted_written _ _ _ start,query,Option.bind_assoc]
    congr 1
    funext host
    congr 1
    funext url
    cases unescape (after hash u.rawQuery) <;> rfl

/-- A path that was escaped, and has a slash in front or is empty, is kept. -/
theorem escapedPath_setPath {name : String} {query : Bytes} (valid : validEncoded p = true) (root : Rooted p)
    (set : setPath name p query = some url) :
    url.escapedPath = p ∧ url.host = name ∧ url.rawQuery = query := by
  obtain ⟨text,read,rfl⟩ := Option.map_eq_some_iff.mp set
  refine ⟨?_,rfl,rfl⟩
  unfold escapedPath
  dsimp only
  by_cases usual : escape text = p
  · rw [if_pos usual,if_neg (by simp)]
    split
    next starred =>
      rw [starred] at usual
      subst usual
      unfold Rooted at root
      revert root
      decide
    next => exact usual
  · have written : p ≠ [] := by
      rintro rfl
      cases read
      exact usual rfl
    rw [if_neg usual,if_pos ⟨written,valid,read⟩]

/-- An unescaped path is written in the usual way. -/
theorem escapedPath_usual {u : URL} (usual : u.rawPath = []) (root : u.path.head? = some slash) :
    u.escapedPath = escape u.path ∧ Rooted (escape u.path) := by
  obtain ⟨rest,eq⟩ := List.head?_eq_some_iff.mp root
  unfold escapedPath
  rw [if_neg (fun raw => raw.1 usual),if_neg (by rw [eq]; exact fun starred => by cases starred)]
  refine ⟨rfl,.inr ?_⟩
  rw [eq]
  rfl

theorem parse_stringWith_some (known : Readback scheme) {u : URL}
    (read : parse readAuthority (u.stringWith scheme authority) = some url) :
    Readable u.rawQuery ∧ readAuthority (escapeHost authority) = some url.host ∧
      url.escapedPath = rooted u.escapedPath ∧ url.rawQuery = before hash u.rawQuery := by
  rw [parse_stringWith readAuthority known] at read
  split at read
  · cases read
  next clean =>
    obtain ⟨name,host,read⟩ := Option.bind_eq_some_iff.mp read
    obtain ⟨found,set,read⟩ := Option.bind_eq_some_iff.mp read
    obtain ⟨fragment,unescaped,rfl⟩ := Option.map_eq_some_iff.mp read
    obtain ⟨path,hostname,query⟩ := escapedPath_setPath (valid_rooted u) (rooted_rooted _) set
    exact ⟨⟨Bool.eq_false_iff.mpr clean,by rw [unescaped]; rfl⟩,by rw [hostname]; exact host,path,query⟩

theorem exists_parse_stringWith (known : Readback scheme) {u : URL} (readable : Readable u.rawQuery)
    (host : readAuthority (escapeHost authority) = some name) :
    ∃ url, parse readAuthority (u.stringWith scheme authority) = some url := by
  obtain ⟨path,read⟩ := Option.isSome_iff_exists.mp (unescape_rooted u)
  obtain ⟨fragment,unescaped⟩ := Option.isSome_iff_exists.mp readable.2
  rw [parse_stringWith readAuthority known,readable.1,if_neg Bool.false_ne_true,host,Option.bind_some,setPath,read,
    unescaped]
  exact ⟨_,rfl⟩

/-- A URL that was written without its raw path is read with the same path as another of the
same unescaped path, where that one starts with a slash and is escaped in the usual way. -/
theorem rooted_eq_iff {u v : URL} (same : u.path = v.path) (unraw : u.rawPath = []) :
    rooted u.escapedPath = v.escapedPath ↔ Rooted v.path ∧ v.escapedPath = escape v.path := by
  have written : u.escapedPath = if v.path = [star] then [star] else escape v.path := by
    rw [escapedPath,if_neg (fun raw => raw.1 unraw),same]
  constructor
  · intro equal
    have root : Rooted u.escapedPath := by
      by_contra unrooted
      -- With a slash more it is not the escaped form of the same path.
      have slashed : rooted u.escapedPath = slash :: u.escapedPath := by
        unfold rooted
        unfold Rooted at unrooted
        rw [if_pos (not_or.mp unrooted)]
      have read := unescape_escapedPath v
      rw [← equal,slashed,unescape_cons (by decide),unescape_escapedPath u,same,Option.map_some] at read
      have longer := congrArg List.length (Option.some.inj read)
      simp at longer
    rw [rooted_eq_self.mpr root] at equal
    refine ⟨root.unescape (same ▸ unescape_escapedPath u),?_⟩
    rw [← equal,written]
    split
    next starred =>
      rw [written,if_pos starred] at root
      exact absurd root not_rooted_star
    next => rfl
  · rintro ⟨root,usual⟩
    have unstarred : v.path ≠ [star] := by
      intro starred
      rw [starred] at root
      exact not_rooted_star root
    have whole : u.escapedPath = v.escapedPath := by rw [written,if_neg unstarred,usual]
    rw [whole]
    refine rooted_eq_self.mpr ?_
    rw [usual]
    rcases root with none | head
    · rw [none]
      exact .inl rfl
    · obtain ⟨rest,eq⟩ := List.head?_eq_some_iff.mp head
      rw [eq]
      exact .inr rfl

/-- What is read of a text without a scheme: two slashes in front, but not three, start an
authority. -/
theorem parseRooted_some (read : parseRooted readAuthority false text = some url) :
    url.rawQuery = after question text ∧
      ((∃ rest, before question text = slash :: slash :: rest ∧ rest.head? ≠ some slash ∧
          unescape (rest.dropWhile (· != slash)) = some url.path) ∨
        (∀ rest, before question text = slash :: slash :: rest → rest.head? = some slash) ∧
          unescape (before question text) = some url.path) := by
  unfold parseRooted at read
  dsimp only at read
  split at read
  next a b rest eq =>
    split at read
    next authority =>
      obtain ⟨rfl,rfl,other⟩ := authority
      obtain ⟨name,_,set⟩ := Option.bind_eq_some_iff.mp read
      obtain ⟨path,unescaped,rfl⟩ := Option.map_eq_some_iff.mp set
      exact ⟨rfl,.inl ⟨rest,eq,other.resolve_left Bool.false_ne_true,unescaped⟩⟩
    next path =>
      obtain ⟨path,unescaped,rfl⟩ := Option.map_eq_some_iff.mp read
      refine ⟨rfl,.inr ⟨fun tail same => ?_,by rw [eq]; exact unescaped⟩⟩
      cases eq.symm.trans same
      by_contra other
      exact path ⟨rfl,rfl,.inr other⟩
  next short =>
    obtain ⟨path,unescaped,rfl⟩ := Option.map_eq_some_iff.mp read
    exact ⟨rfl,.inr ⟨fun rest same => absurd same (short _ _ _),unescaped⟩⟩

theorem parse_slash_some {s : Bytes} (read : parse readAuthority (slash :: s) = some url) :
    (before hash (slash :: s)).any isCTL = false ∧
      parseRooted readAuthority false (before hash (slash :: s)) = some url := by
  unfold parse at read
  dsimp only at read
  split at read
  · cases read
  next clean =>
    rw [before_cons (by decide),getScheme_slash,Option.bind_eq_bind,Option.bind_some] at read
    obtain ⟨found,parsed,read⟩ := Option.bind_eq_some_iff.mp read
    obtain ⟨fragment,_,done⟩ := Option.bind_eq_some_iff.mp read
    cases done
    rw [before_cons (by decide)] at clean ⊢
    exact ⟨Bool.eq_false_iff.mpr clean,parsed⟩

end Reading

end NetUrl
