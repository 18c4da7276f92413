import Centauri.ConfigBlocks

/-! What single lines do to a whole text: which of them leave no trace, and which leave
blank operands. -/
namespace Centauri.Config

variable {K : Type} {lower : Char → Char} {parseURL : String → Option (String × String)}

/-- Only a text that is read to its end is accepted. -/
theorem parse_ok_iff {result : List (Route K) × Option Nat} :
    parse lower parseURL data readErr = .ok result ↔
      Bufio.Fits data ∧ readErr = none ∧ parseLines lower parseURL (Bufio.lines data) .empty = .ok result := by
  constructor
  · intro parsed
    have complete : (Bufio.scan data readErr).2 = none := by
      unfold parse at parsed
      dsimp only at parsed
      split at parsed
      · cases parsed
      split at parsed
      · cases parsed
      · assumption
    obtain ⟨fits,rfl⟩ := (Bufio.scan_complete data readErr).mp complete
    refine ⟨fits,rfl,?_⟩
    simp only [parse,Bufio.scan_of_fits fits] at parsed
    split at parsed
    · cases parsed
    next looped =>
      cases parsed
      exact looped
  · rintro ⟨fits,rfl,looped⟩
    simp only [parse,Bufio.scan_of_fits fits,looped]

theorem parseLines_skip (skipped : ∀ p : Progress K, parseLine lower parseURL text p = .ok p)
    (before after : List String) (p : Progress K) {result : List (Route K) × Option Nat} :
    parseLines lower parseURL (before ++ text :: after) p = .ok result ↔
      parseLines lower parseURL (before ++ after) p = .ok result := by
  induction before generalizing p with
  | nil =>
    rw [List.nil_append,List.nil_append,parseLines_cons]
    simp [skipped]
  | cons line before ih =>
    rw [List.cons_append,List.cons_append,parseLines_cons,parseLines_cons]
    simp only [ih]

theorem parseLines_stuck (stuck : ∀ p q : Progress K, parseLine lower parseURL text p ≠ .ok q)
    (before after : List String) (p : Progress K) {result : List (Route K) × Option Nat} :
    parseLines lower parseURL (before ++ text :: after) p ≠ .ok result := by
  intro parsed
  induction before generalizing p with
  | nil =>
    obtain ⟨q,moved,_⟩ := (parseLines_cons p).mp parsed
    exact stuck p q moved
  | cons line before ih =>
    obtain ⟨q,_,later⟩ := (parseLines_cons p).mp parsed
    exact ih q later

section Comments

def trimmed (line : List UInt8) : String := Strings.trimSpace (Utf8.string (Bufio.dropCR line))

/-- A blank line or a comment, by the documentation. -/
def Comment (line : List UInt8) : Prop := trimmed line = "" ∨ ['#'] <+: (trimmed line).toList

/-- A blank line, or a comment whose hash stands alone or before a space, and not too long
for the scanner. -/
def Skipped (line : List UInt8) : Prop :=
  line.length < Bufio.maxTokenSize ∧
    (trimmed line = "" ∨ trimmed line = "#" ∨ ['#',' '] <+: (trimmed line).toList)

def inserted (front line rest : List UInt8) : List UInt8 := front ++ (line ++ Bufio.newline :: rest)

variable (K lower parseURL) in
/-- The line can be inserted anywhere and changes no result: neither what is made of an
accepted text nor that others are rejected. -/
def Transparent (line : List UInt8) : Prop :=
  ∀ front rest readErr, Bufio.AtLine front → ∀ result : List (Route K) × Option Nat,
    parse lower parseURL (inserted front line rest) readErr = .ok result ↔
      parse lower parseURL (front ++ rest) readErr = .ok result

theorem lines_inserted (place : Bufio.AtLine front) (single : Bufio.newline ∉ line) (rest : List UInt8) :
    Bufio.lines (inserted front line rest) =
      Bufio.lines front ++ Utf8.string (Bufio.dropCR line) :: Bufio.lines rest := by
  rw [inserted,Bufio.lines,Bufio.rawLines_append place,Bufio.rawLines_line single]
  simp [Bufio.lines]

theorem lines_append (place : Bufio.AtLine front) (rest : List UInt8) :
    Bufio.lines (front ++ rest) = Bufio.lines front ++ Bufio.lines rest := by
  rw [Bufio.lines,Bufio.rawLines_append place]
  simp [Bufio.lines]

theorem fits_inserted (place : Bufio.AtLine front) (single : Bufio.newline ∉ line) (rest : List UInt8) :
    Bufio.Fits (inserted front line rest) ↔
      line.length < Bufio.maxTokenSize ∧ Bufio.Fits (front ++ rest) := by
  unfold Bufio.Fits
  rw [inserted,Bufio.rawLines_append place,Bufio.rawLines_line single,Bufio.rawLines_append place]
  simp only [List.mem_append,List.mem_cons]
  constructor
  · intro fits
    refine ⟨fits line (.inr (.inl rfl)),?_⟩
    rintro l (early | late)
    · exact fits l (.inl early)
    · exact fits l (.inr (.inr late))
  · rintro ⟨short,fits⟩ l (early | rfl | late)
    · exact fits l (.inl early)
    · exact short
    · exact fits l (.inr late)

/-- A hash at the start of a line is at the start of its directive. -/
theorem directive_hash (unicode : UnicodeLower lower) (hash : ['#'] <+: line.toList) :
    ['#'] <+: (Strings.toLower lower (Strings.cut ' ' line).1).toList := by
  obtain ⟨rest,eq⟩ := hash
  have same : lower '#' = '#' := (unicode.ascii '#' (by decide)).trans (by decide)
  rw [Strings.toList_toLower]
  rcases Strings.cut_cases ' ' line with ⟨_,done⟩ | ⟨front,later,text,_,done⟩
  · rw [done,← eq]
    simp [same]
  · rw [← eq] at text
    rw [done,String.toList_ofList]
    cases front with
    | nil => simp at text
    | cons c front =>
      cases (List.cons.inj text).1
      simp [same]

theorem readLine_ignored : readLine lower text = .ignored ↔
    Strings.trimSpace text = "" ∨ Strings.trimSpace text = "#" ∨ ['#',' '] <+: (Strings.trimSpace text).toList := by
  unfold readLine
  dsimp only
  split
  next set => simp [set]
  next plain =>
    refine iff_of_false ?_ plain
    split <;> simp

/-- A comment that is not skipped is no directive. -/
theorem readLine_comment (unicode : UnicodeLower lower) (hash : ['#'] <+: (Strings.trimSpace text).toList)
    (kept : readLine lower text ≠ .ignored) : readLine lower text = .unknown := by
  have read := reads unicode text
  have starts := directive_hash unicode hash
  generalize readLine lower text = line at *
  generalize Strings.toLower lower (Strings.cut ' ' (Strings.trimSpace text)).1 = directive at *
  cases read with
  | empty => exact absurd rfl kept
  | comment => exact absurd rfl kept
  | unknown => rfl
  | route eq => simp [eq] at starts
  | upstream eq => simp [eq] at starts
  | header eq => simp [eq] at starts
  | onError eq => simp [eq] at starts
  | provider eq => simp [eq] at starts
  | fallback eq => simp [eq] at starts
  | redirect eq => simp [eq] at starts
  | subject eq => simp [eq] at starts

theorem parseLine_unknown (unicode : UnicodeLower lower) (unknown : readLine lower text = .unknown)
    (p q : Progress K) : parseLine lower parseURL text p ≠ .ok q := by
  intro parsed
  have other (args : String) : readLine lower text ≠ .route args := by
    rw [unknown]
    simp
  obtain ⟨done,route,fallback⟩ := p
  cases route with
  | none =>
    have ignored := ((parseLine_before unicode other done fallback).mp parsed).1
    rw [unknown] at ignored
    cases ignored
  | some route =>
    have fine := ((parseLine_within unicode other done route fallback).mp parsed).1
    rw [unknown] at fine
    exact fine

/-- Any other comment has every text rejected. -/
theorem parse_commented (unicode : UnicodeLower lower) (comment : Comment line) (kept : ¬Skipped line)
    (single : Bufio.newline ∉ line) (place : Bufio.AtLine front) (rest : List UInt8) (readErr : Option String)
    (result : List (Route K) × Option Nat) :
    parse lower parseURL (inserted front line rest) readErr ≠ .ok result := by
  intro parsed
  obtain ⟨fits,_,looped⟩ := parse_ok_iff.mp parsed
  have short := ((fits_inserted place single rest).mp fits).1
  have unignored : readLine lower (Utf8.string (Bufio.dropCR line)) ≠ .ignored :=
    fun ignored => kept ⟨short,readLine_ignored.mp ignored⟩
  have hash : ['#'] <+: (trimmed line).toList :=
    comment.resolve_left fun blank => kept ⟨short,.inl blank⟩
  rw [lines_inserted place single] at looped
  exact parseLines_stuck (parseLine_unknown unicode (readLine_comment unicode hash unignored)) _ _ _ looped

theorem transparent_of_skipped (unicode : UnicodeLower lower) (skipped : Skipped line)
    (single : Bufio.newline ∉ line) : Transparent K lower parseURL line := by
  intro front rest readErr place result
  have ignored : readLine lower (Utf8.string (Bufio.dropCR line)) = .ignored := readLine_ignored.mpr skipped.2
  rw [parse_ok_iff,parse_ok_iff,fits_inserted place single,lines_inserted place single,lines_append place,
    parseLines_skip (parseLine_ignored unicode ignored)]
  simp [skipped.1]

/-- The comments and blank lines that leave no trace, and what the others do. -/
theorem transparent_iff (unicode : UnicodeLower lower) (parseURL : String → Option (String × String))
    (line : List UInt8) (single : Bufio.newline ∉ line) (comment : Comment line) :
    (Transparent K lower parseURL line ↔ Skipped line) ∧
    (¬Skipped line → ∀ front rest readErr, Bufio.AtLine front → ∀ result : List (Route K) × Option Nat,
      parse lower parseURL (inserted front line rest) readErr ≠ .ok result) := by
  refine ⟨⟨fun transparent => ?_,fun skipped => transparent_of_skipped unicode skipped single⟩,
    fun kept front rest readErr place => parse_commented unicode comment kept single place rest readErr⟩
  by_contra kept
  have accepted : parse lower parseURL ([] ++ []) none = .ok (([],none) : List (Route K) × Option Nat) := rfl
  have still := (transparent [] [] none (.inl rfl) _).mpr accepted
  exact parse_commented unicode comment kept single (.inl rfl) [] none _ still

end Comments

section Operands

/-- No operand is empty, so that there are a domain and an upstream of use. -/
structure NoBlank (route : Route K) : Prop where
  domains : "" ∉ route.domains
  subject : "" ∉ route.subject
  upstreams : ∀ upstream ∈ route.upstreams, upstream.host ≠ ""
  headers : ∀ header ∈ route.headers, header.name ≠ ""
  errorMappings : ∀ mapping ∈ route.errorMappings, mapping.upstream ≠ ""
  usable : (∃ domain ∈ route.domains, domain ≠ "") ∧ ∃ upstream ∈ route.upstreams, upstream.host ≠ ""

/-- The line has a blank where an operand should be: two spaces together among the names of
a route or a subject, no upstream, or two spaces after the operation of a header rule. -/
def Line.Blank : Line → Prop
  | .route args | .subject args => [' ',' '] <:+: ' ' :: (args.toList ++ [' '])
  | .upstream args => args = ""
  | .header args =>
    (Strings.cut ' ' args).2.1 = "" ∨ [' '] <+: (Strings.cut ' ' args).2.1.toList
  | _ => False

instance decidableBlank : ∀ line : Line, Decidable line.Blank
  | .route args | .subject args =>
    inferInstanceAs (Decidable ([' ',' '] <:+: ' ' :: (args.toList ++ [' '])))
  | .upstream args => inferInstanceAs (Decidable (args = ""))
  | .header args => inferInstanceAs
      (Decidable ((Strings.cut ' ' args).2.1 = "" ∨ [' '] <+: (Strings.cut ' ' args).2.1.toList))
  | .ignored | .onError _ | .provider _ | .fallback | .redirect | .unknown => inferInstanceAs (Decidable False)

theorem headerWithValue_name (parsed : headerWithValue name operation args parts = .ok header) :
    ∃ first rest, parts = first :: header.name :: rest := by
  unfold headerWithValue at parsed
  split at parsed
  · cases parsed
    exact ⟨_,_,rfl⟩
  · cases parsed

theorem parseHeader_name (parsed : parseHeader lower args = .ok header) :
    header.name = (Strings.cut ' ' (Strings.cut ' ' args).2.1).1 := by
  have second : ∃ first rest, Strings.splitN ' ' 3 args = first :: header.name :: rest := by
    unfold parseHeader at parsed
    dsimp only at parsed
    split at parsed
    · split at parsed
      next parts =>
        cases parsed
        exact ⟨_,_,parts⟩
      next => cases parsed
    · exact headerWithValue_name parsed
    · exact headerWithValue_name parsed
    · exact headerWithValue_name parsed
    · cases parsed
  obtain ⟨first,rest,parts⟩ := second
  exact Strings.splitN_second parts

/-- What an accepted `on_error` line says. -/
theorem parseOnError_ok (parsed : parseOnError parseURL args = .ok mapping) :
    ∃ code target, Strings.fields args = [code,target] ∧ mapping.upstream = (Strings.cut '/' target).1 ∧
      mapping.upstream ≠ "" ∧
      (if (Strings.cut '/' target).2.1 = "" then mapping.path = ""
        else parseURL ("/" ++ (Strings.cut '/' target).2.1) = some (mapping.path,mapping.rawQuery)) := by
  unfold parseOnError at parsed
  split at parsed
  next code target fields =>
    refine ⟨code,target,fields,?_⟩
    have found : (Strings.cut '/' target).2.1 ≠ "" → (Strings.cut '/' target).2.2 = true := by
      unfold Strings.cut
      split <;> simp
    dsimp only at parsed
    split at parsed
    · cases parsed
    split at parsed
    · cases parsed
    split at parsed
    · cases parsed
    next some =>
    have host : (Strings.cut '/' target).1 ≠ "" := by simpa using some
    split at parsed
    · cases parsed
    split at parsed
    next path =>
      have written : (Strings.cut '/' target).2.1 ≠ "" := by
        intro none
        simp [none] at path
      rw [if_neg written]
      split at parsed
      · cases parsed
      next read =>
      split at parsed
      · cases parsed
      · cases parsed
        exact ⟨rfl,host,read⟩
    next path =>
      have none : (Strings.cut '/' target).2.1 = "" := by
        by_contra written
        exact path (by simp [written,found written])
      cases parsed
      rw [if_pos none]
      exact ⟨rfl,host,rfl⟩
  · cases parsed

theorem parseOnError_upstream (parsed : parseOnError parseURL args = .ok mapping) : mapping.upstream ≠ "" := by
  obtain ⟨_,_,_,_,host,_⟩ := parseOnError_ok parsed
  exact host

/-- The lines of a text are those before the first block and those of the blocks. -/
theorem forall_mem_blocks (P : Line → Prop) (text : List Line) : (∀ line ∈ text, P line) ↔
    (∀ line ∈ (blocks text).1, P line) ∧
      ∀ b ∈ (blocks text).2, P (.route b.args) ∧ ∀ line ∈ b.body, P line := by
  induction text with
  | nil => simp [blocks]
  | cons line rest ih =>
    cases line with
    | route args =>
      simp only [blocks,List.forall_mem_cons,List.not_mem_nil,false_implies,implies_true,true_and]
      rw [ih,and_assoc]
    | _ =>
      simp only [blocks,List.forall_mem_cons]
      rw [ih,and_assoc]

/-- Only the first line of a block is a `route` line. -/
theorem blocks_route (text : List Line) (args : String) :
    .route args ∉ (blocks text).1 ∧ ∀ b ∈ (blocks text).2, .route args ∉ b.body := by
  induction text with
  | nil => simp [blocks]
  | cons line rest ih =>
    cases line with
    | route given => exact ⟨by simp [blocks],by simpa [blocks] using ih⟩
    | _ => simpa [blocks] using ih

/-- A well-formed block has no blank operand when its lines have none. -/
theorem noBlank_iff (b : Block) (fine : ∀ line ∈ b.body, line.Fine lower parseURL) (formed : b.WellFormed)
    (inside : ∀ args, .route args ∉ b.body) :
    NoBlank (b.route lower parseURL : Route K) ↔
      ¬Line.Blank (.route b.args) ∧ ∀ line ∈ b.body, ¬line.Blank := by
  constructor
  · rintro ⟨domains,subject,upstreams,headers,_,_⟩
    refine ⟨mt (Strings.empty_mem_split ' ' b.args).mpr domains,fun line member blank => ?_⟩
    cases line with
    | subject args =>
      apply subject
      exact List.mem_flatMap.mpr ⟨_,member,(Strings.empty_mem_split ' ' args).mpr blank⟩
    | upstream args => exact upstreams ⟨args⟩ (List.mem_filterMap.mpr ⟨_,member,rfl⟩) blank
    | header args =>
      obtain ⟨header,parsed⟩ := fine _ member
      apply headers header (List.mem_filterMap.mpr ⟨_,member,by simp [parsed,Except.toOption]⟩)
      rw [parseHeader_name parsed]
      exact (Strings.cut_eq_empty ' ' _).mpr blank
    | route args => exact inside args member
    | _ => exact blank
  · rintro ⟨opened,body⟩
    have domains : "" ∉ Strings.split ' ' b.args := mt (Strings.empty_mem_split ' ' b.args).mp opened
    have upstream (args : String) (member : .upstream args ∈ b.body) : args ≠ "" := body (.upstream args) member
    refine ⟨domains,?_,?_,?_,?_,?_,?_⟩
    · intro member
      obtain ⟨line,inBody,listed⟩ := List.mem_flatMap.mp member
      cases line with
      | subject args => exact body _ inBody ((Strings.empty_mem_split ' ' args).mp listed)
      | _ => simp at listed
    · intro host member
      obtain ⟨line,inBody,listed⟩ := List.mem_filterMap.mp member
      cases line with
      | upstream args =>
        cases listed
        exact upstream args inBody
      | _ => simp at listed
    · intro header member
      obtain ⟨line,inBody,listed⟩ := List.mem_filterMap.mp member
      cases line with
      | header args =>
        obtain ⟨header',parsed⟩ := fine _ inBody
        obtain rfl : header' = header := by simpa [parsed,Except.toOption] using listed
        rw [parseHeader_name parsed]
        exact mt (Strings.cut_eq_empty ' ' _).mp (body (.header args) inBody)
      | _ => simp at listed
    · intro mapping member
      obtain ⟨line,inBody,listed⟩ := List.mem_filterMap.mp member
      cases line with
      | onError args =>
        obtain ⟨mapping',parsed⟩ := fine _ inBody
        obtain rfl : mapping' = mapping := by simpa [parsed,Except.toOption] using listed
        exact parseOnError_upstream parsed
      | _ => simp at listed
    · obtain ⟨domain,member⟩ := List.exists_mem_of_ne_nil _ (Strings.split_ne_nil ' ' b.args)
      exact ⟨domain,member,fun none => domains (none ▸ member)⟩
    · obtain ⟨args,member⟩ := formed.upstream
      exact ⟨⟨args⟩,List.mem_filterMap.mpr ⟨_,member,rfl⟩,upstream args member⟩

/-- An accepted text makes routes without blank operands exactly when no line of it has a
blank where an operand should be. -/
theorem noBlank_routes_iff (unicode : UnicodeLower lower) (parseURL : String → Option (String × String))
    (data : List UInt8) (readErr : Option String) (routes : List (Route K)) (fallback : Option Nat)
    (accepted : parse lower parseURL data readErr = .ok (routes,fallback)) :
    (∀ route ∈ routes, NoBlank route) ↔ ∀ text ∈ Bufio.lines data, ¬(readLine lower text).Blank := by
  obtain ⟨fits,rfl,_⟩ := parse_ok_iff.mp accepted
  obtain ⟨formed,means⟩ := parse_iff (K := K) unicode parseURL data fits
  obtain ⟨rfl,_⟩ := means routes fallback accepted
  obtain ⟨lines,opened,blocksFormed,_⟩ := formed.mp ⟨_,accepted⟩
  rw [← List.forall_mem_map (f := readLine lower) (P := fun line => ¬line.Blank),forall_mem_blocks,
    List.forall_mem_map]
  have fine := ((forall_mem_blocks _ _).mp lines).2
  have each (b : Block) (member : b ∈ (blocks ((Bufio.lines data).map (readLine lower))).2) :
      NoBlank (b.route lower parseURL : Route K) ↔
        ¬Line.Blank (.route b.args) ∧ ∀ line ∈ b.body, ¬line.Blank :=
    noBlank_iff b (fine b member).2 (blocksFormed b member) fun args => (blocks_route _ args).2 b member
  constructor
  · intro clean
    refine ⟨fun line member => ?_,fun b member => (each b member).mp (clean b member)⟩
    rw [opened line member]
    exact id
  · rintro ⟨_,clean⟩ b member
    exact (each b member).mpr (clean b member)

end Operands

end Centauri.Config

namespace Centauri.Sample

/-- A text that is accepted by itself and rejected with a comment in front whose hash a
letter follows. -/
theorem commented_rejected :
    (Config.parse Char.toLower (fun _ => none) (bytes "route a\nupstream h") none :
      Except String (List (Route Unit) × Option Nat)).toOption.isSome = true ∧
    (Config.parse Char.toLower (fun _ => none) (Config.inserted [] (bytes "#x") (bytes "route a\nupstream h")) none :
      Except String (List (Route Unit) × Option Nat)).toOption.isSome = false ∧
    Config.Comment (bytes "#x") := by
  refine ⟨by decide +kernel,by decide +kernel,.inr ?_⟩
  decide +kernel

def blanks : List UInt8 := bytes "route a  b\nupstream"

theorem blanks_accepted : ∃ routes fallback,
    (Config.parse Char.toLower (fun _ => none) blanks none : Except String (List (Route Unit) × Option Nat)) =
      .ok (routes,fallback) ∧ ∃ route ∈ routes, "" ∈ route.domains ∧ route.upstreams = [⟨""⟩] := by
  have read : (Config.parse Char.toLower (fun _ => none) blanks none :
      Except String (List (Route Unit) × Option Nat)).toOption.map
        (fun result => result.1.map fun route => (route.domains,route.upstreams)) =
      some [(["a","","b"],[⟨""⟩])] := by decide +kernel
  generalize (Config.parse Char.toLower (fun _ => none) blanks none :
    Except String (List (Route Unit) × Option Nat)) = parsed at read
  cases parsed with
  | error message => simp [Except.toOption] at read
  | ok result =>
    obtain ⟨routes,fallback⟩ := result
    simp only [Except.toOption,Option.map_some,Option.some.injEq] at read
    obtain ⟨route,rfl,parts⟩ := List.map_eq_singleton_iff.mp read
    obtain ⟨domains,upstreams⟩ := Prod.mk.inj parts
    exact ⟨_,_,rfl,route,List.mem_singleton_self route,by simp [domains],upstreams⟩

/-- One space between two operands leaves none of them blank. -/
theorem config_noBlank : ∃ routes fallback,
    (Config.parse Char.toLower (fun _ => none) config none : Except String (List (Route Unit) × Option Nat)) =
      .ok (routes,fallback) ∧ ∀ route ∈ routes, Config.NoBlank route := by
  have lines : (Bufio.lines config).map (Config.readLine Char.toLower) =
      [.ignored,.route "a.org b.org",.upstream "h:80",.subject "*.a.org",.fallback] := by decide +kernel
  have full : ∀ line ∈ (Bufio.lines config).map (Config.readLine Char.toLower), ¬line.Blank := by
    rw [lines]
    decide +kernel
  have read : (Config.parse Char.toLower (fun _ => none) config none :
      Except String (List (Route Unit) × Option Nat)).toOption.isSome = true := by decide +kernel
  have means := Config.noBlank_routes_iff (K := Unit) .toLower (fun _ => none) config none
  generalize (Config.parse Char.toLower (fun _ => none) config none :
    Except String (List (Route Unit) × Option Nat)) = parsed at read means ⊢
  cases parsed with
  | error message => simp [Except.toOption] at read
  | ok result =>
    refine ⟨result.1,result.2,rfl,?_⟩
    refine (means result.1 result.2 rfl).mpr ?_
    exact fun text member => full _ (List.mem_map_of_mem member)

theorem spaced_transparent : Config.Transparent Unit Char.toLower (fun _ => none) (bytes "# x") := by
  refine (Config.transparent_iff .toLower _ _ ?_ (.inr ?_)).1.mpr ⟨?_,.inr (.inr ?_)⟩ <;> decide +kernel

end Centauri.Sample
