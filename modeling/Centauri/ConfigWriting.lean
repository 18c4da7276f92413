import Centauri.ConfigText
import Centauri.Texts

/-! Routes written down in the route language. There is no such function in the program, but
every table that its options describe has a text, and `Parse` makes this table of the text. -/
namespace Centauri.Config

open Strings

variable {K : Type} {lower : Char → Char} {parseURL : String → Option (String × String)}

namespace Line

def text : Line → String
  | .route args => spaced "route" args
  | .upstream args => spaced "upstream" args
  | .header args => spaced "header" args
  | .onError args => spaced "on_error" args
  | .provider args => spaced "provider" args
  | .subject args => spaced "subject" args
  | .fallback => "fallback"
  | .redirect => "redirect-to-primary"
  | .ignored | .unknown => ""

def Writable : Line → Prop
  | .route args | .upstream args | .header args | .onError args | .provider args | .subject args => Phrase args
  | .fallback | .redirect => True
  | .ignored | .unknown => False

end Line

/-- There is one way to read a line. -/
theorem Reads.unique (one : Reads directive line args l) (other : Reads directive line args l') : l = l' := by
  cases one <;> cases other <;> simp_all

theorem toLower_word (unicode : UnicodeLower lower) (word : Word s) (fixed : toLower Char.toLower s = s) :
    toLower lower s = s := by
  refine (toLower_ascii unicode fun c member => ?_).trans fixed
  obtain ⟨_,high⟩ := word.2 c member
  omega

/-- How a directive and its argument are read. -/
theorem reads_spaced (unicode : UnicodeLower lower) (word : Word directive)
    (fixed : toLower Char.toLower directive = directive) (phrase : Phrase args) :
    Reads directive (spaced directive args) args (readLine lower (spaced directive args)) := by
  have read := reads unicode (spaced directive args)
  rwa [trimSpace_spaced word phrase,cut_spaced word,toLower_word unicode word fixed] at read

theorem reads_word (unicode : UnicodeLower lower) (word : Word directive)
    (fixed : toLower Char.toLower directive = directive) :
    Reads directive directive "" (readLine lower directive) := by
  have read := reads unicode directive
  rwa [trimSpace_word word,cut_absent word.spaceless,toLower_word unicode word fixed] at read

/-- A line's text is read as the line. -/
theorem readLine_text (unicode : UnicodeLower lower) {line : Line} (writable : line.Writable) :
    readLine lower line.text = line := by
  cases line with
  | route args => exact (reads_spaced unicode (by decide) (by decide) writable).unique (.route rfl)
  | upstream args => exact (reads_spaced unicode (by decide) (by decide) writable).unique (.upstream rfl)
  | header args => exact (reads_spaced unicode (by decide) (by decide) writable).unique (.header rfl)
  | onError args => exact (reads_spaced unicode (by decide) (by decide) writable).unique (.onError rfl)
  | provider args => exact (reads_spaced unicode (by decide) (by decide) writable).unique (.provider rfl)
  | subject args => exact (reads_spaced unicode (by decide) (by decide) writable).unique (.subject rfl)
  | fallback => exact (reads_word unicode (by decide) (by decide)).unique (.fallback rfl)
  | redirect => exact (reads_word unicode (by decide) (by decide)).unique (.redirect rfl)
  | ignored => exact writable.elim
  | unknown => exact writable.elim

theorem text_phrase {line : Line} (writable : line.Writable) : Phrase line.text := by
  cases line with
  | route args => exact Phrase.spaced (by decide) writable
  | upstream args => exact Phrase.spaced (by decide) writable
  | header args => exact Phrase.spaced (by decide) writable
  | onError args => exact Phrase.spaced (by decide) writable
  | provider args => exact Phrase.spaced (by decide) writable
  | subject args => exact Phrase.spaced (by decide) writable
  | fallback => exact Word.phrase (by decide)
  | redirect => exact Word.phrase (by decide)
  | ignored => exact writable.elim
  | unknown => exact writable.elim

def headerArgs (h : Header) : String :=
  match h.operation with
  | .delete => spaced "delete" h.name
  | .add => spaced "add" (spaced h.name h.value)
  | .replace => spaced "replace" (spaced h.name h.value)
  | .default => spaced "default" (spaced h.name h.value)

structure HeaderWritable (h : Header) : Prop where
  name : Word h.name
  value : if h.operation = .delete then h.value = "" else Phrase h.value

theorem parseHeader_args (unicode : UnicodeLower lower) (writable : HeaderWritable h) :
    parseHeader lower (headerArgs h) = .ok h ∧ Phrase (headerArgs h) := by
  obtain ⟨name,value,operation⟩ := h
  obtain ⟨word,phrase⟩ := writable
  have delete : toLower lower "delete" = "delete" := toLower_word unicode (by decide) (by decide)
  have add : toLower lower "add" = "add" := toLower_word unicode (by decide) (by decide)
  have replace : toLower lower "replace" = "replace" := toLower_word unicode (by decide) (by decide)
  have default : toLower lower "default" = "default" := toLower_word unicode (by decide) (by decide)
  unfold parseHeader
  cases operation with
  | delete =>
    obtain rfl : value = "" := phrase
    refine ⟨?_,Phrase.spaced (by decide) word.phrase⟩
    simp [headerArgs,splitN_two (show Word "delete" by decide) word,delete]
  | add =>
    have phrase : Phrase value := phrase
    refine ⟨?_,Phrase.spaced (by decide) (Phrase.spaced word phrase)⟩
    simp [headerArgs,splitN_three (show Word "add" by decide) word,add,headerWithValue]
  | replace =>
    have phrase : Phrase value := phrase
    refine ⟨?_,Phrase.spaced (by decide) (Phrase.spaced word phrase)⟩
    simp [headerArgs,splitN_three (show Word "replace" by decide) word,replace,headerWithValue]
  | default =>
    have phrase : Phrase value := phrase
    refine ⟨?_,Phrase.spaced (by decide) (Phrase.spaced word phrase)⟩
    simp [headerArgs,splitN_three (show Word "default" by decide) word,default,headerWithValue]

/-- The target of a mapping, whose path and query are written as `path` says, if at all. -/
def mappingTarget (path : ErrorMapping → String) (m : ErrorMapping) : String :=
  if path m = "" then m.upstream else m.upstream ++ "/" ++ path m

def mappingArgs (path : ErrorMapping → String) (m : ErrorMapping) : String :=
  spaced (toString m.status) (mappingTarget path m)

/-- An error status, an upstream, and a path that is parsed as what it is for. -/
structure MappingWritable (parseURL : String → Option (String × String)) (path : ErrorMapping → String)
    (m : ErrorMapping) : Prop where
  status : 400 ≤ m.status ∧ m.status ≤ 599
  upstream : Word m.upstream ∧ ∀ c ∈ m.upstream.toList, c ∉ ['/','?','#']
  path : path m = "" ∧ m.path = "" ∧ m.rawQuery = "" ∨
    Word (path m) ∧ parseURL ("/" ++ path m) = some (m.path,m.rawQuery) ∧ (m.rawQuery = "" → '?' ∉ (path m).toList)

/-- Statuses are read back. -/
theorem atoi_status (bounds : 400 ≤ status ∧ status ≤ 599) :
    atoi (toString status) = some status ∧ Word (toString status) := by
  have all : ∀ n < 200, atoi (toString ((400 + n : Nat) : Int)) = some ((400 + n : Nat) : Int) ∧
      Word (toString ((400 + n : Nat) : Int)) := by decide +kernel
  have known := all (status - 400).toNat (by omega)
  have same : ((400 + (status - 400).toNat : Nat) : Int) = status := by omega
  rwa [same] at known

theorem mappingTarget_word (writable : MappingWritable parseURL path m) : Word (mappingTarget path m) := by
  unfold mappingTarget
  split
  · exact writable.upstream.1
  · next some =>
    obtain ⟨word,_⟩ := writable.path.resolve_left fun none => some none.1
    refine ⟨fun none => ?_,fun c member => ?_⟩
    · have none := congrArg String.toList none
      simp at none
    · simp only [String.toList_append,List.mem_append] at member
      rcases member with (inside | inside) | inside
      · exact writable.upstream.1.2 c inside
      · obtain rfl : c = '/' := by simpa using inside
        decide
      · exact word.2 c inside

theorem parseOnError_args (writable : MappingWritable parseURL path m) :
    parseOnError parseURL (mappingArgs path m) = .ok m ∧ Phrase (mappingArgs path m) := by
  obtain ⟨number,code⟩ := atoi_status writable.status
  have target := mappingTarget_word writable
  refine ⟨?_,Phrase.spaced code target.phrase⟩
  obtain ⟨low,high⟩ := writable.status
  obtain ⟨upstream,plain⟩ := writable.upstream
  have slash : '/' ∉ m.upstream.toList := fun member => plain _ member (by simp)
  have unmarked : containsAny m.upstream "?#" = false := by
    simp only [containsAny,List.any_eq_false]
    intro c member
    have := plain c member
    simp_all
  have inside : ¬(m.status < 400) ∧ ¬(m.status > 599) := by omega
  unfold parseOnError
  rw [mappingArgs,fields_spaced code target]
  simp only [number,inside.1,inside.2,decide_false,Bool.or_false,Bool.false_eq_true,if_false]
  rcases writable.path with ⟨none,noPath,noQuery⟩ | ⟨word,parsed,query⟩
  · rw [mappingTarget,if_pos none,cut_absent slash]
    have bare : (⟨m.status,m.upstream,"",""⟩ : ErrorMapping) = m := calc
      _ = ⟨m.status,m.upstream,m.path,m.rawQuery⟩ := by rw [noPath,noQuery]
      _ = m := rfl
    simp [upstream.1,unmarked,bare]
  · have text : (mappingTarget path m).toList = m.upstream.toList ++ '/' :: (path m).toList := by
      rw [mappingTarget,if_neg word.1]
      simp
    rw [cut_eq text slash]
    simpa [upstream.1,unmarked,word.1,parsed] using query

section Routes

variable (path : ErrorMapping → String)

def body (marked : Bool) (r : Route K) : List Line :=
  r.upstreams.map (fun u => Line.upstream u.host) ++
    ((if r.subject = [] then [] else [Line.subject (words r.subject)]) ++
      (r.headers.map (fun h => Line.header (headerArgs h)) ++
        (r.errorMappings.map (fun m => Line.onError (mappingArgs path m)) ++
          ((if r.provider = "" then [] else [Line.provider r.provider]) ++
            ((if r.redirectToPrimary then [Line.redirect] else []) ++
              (if marked then [Line.fallback] else []))))))

def block (marked : Bool) (r : Route K) : Block := ⟨words r.domains,body path marked r⟩

/-- What can be written of a route is words and phrases, and it is as `Parse` leaves it. -/
structure RouteWritable (parseURL : String → Option (String × String)) (r : Route K) : Prop where
  domains : ∀ d ∈ r.domains, Word d
  upstreams : r.upstreams ≠ [] ∧ ∀ u ∈ r.upstreams, Phrase u.host
  subject : ∀ s ∈ r.subject, Word s
  headers : ∀ h ∈ r.headers, HeaderWritable h
  mappings : ∀ m ∈ r.errorMappings, MappingWritable parseURL path m
  provider : r.provider ≠ "" → Phrase r.provider
  redirect : r.redirectToPrimary = true → 2 ≤ r.domains.length
  unchecked : r.certificate = none ∧ r.certificateStatus = .notChecked

variable {path} {r : Route K}

/-- Which lines there are. -/
theorem mem_body {line : Line} : line ∈ body path marked r ↔
    (∃ u ∈ r.upstreams, .upstream u.host = line) ∨ (¬r.subject = [] ∧ line = .subject (words r.subject)) ∨
    (∃ h ∈ r.headers, .header (headerArgs h) = line) ∨
    (∃ m ∈ r.errorMappings, .onError (mappingArgs path m) = line) ∨
    (¬r.provider = "" ∧ line = .provider r.provider) ∨ (r.redirectToPrimary = true ∧ line = .redirect) ∨
    (marked = true ∧ line = .fallback) := by
  simp only [body,List.mem_append,List.mem_map,List.mem_ite_nil_left,List.mem_ite_nil_right,List.mem_singleton]

theorem body_upstreams : (body path marked r).filterMap Line.upstream? = r.upstreams := by
  simp only [body,List.filterMap_append,List.filterMap_map]
  split_ifs <;> simp [Function.comp_def]

theorem body_headers (read : ∀ h ∈ r.headers, parseHeader lower (headerArgs h) = .ok h) :
    (body path marked r).filterMap (Line.header? lower) = r.headers := by
  have written : r.headers.filterMap (Line.header? lower ∘ fun h => .header (headerArgs h)) = r.headers := by
    refine (List.filterMap_congr fun h member => ?_).trans List.filterMap_some
    simp [read h member,Except.toOption]
  simp only [body,List.filterMap_append,List.filterMap_map,written]
  split_ifs <;> simp [Function.comp_def,List.filterMap_cons]

theorem body_mappings (read : ∀ m ∈ r.errorMappings, parseOnError parseURL (mappingArgs path m) = .ok m) :
    (body path marked r).filterMap (Line.mapping? parseURL) = r.errorMappings := by
  have written : r.errorMappings.filterMap (Line.mapping? parseURL ∘ fun m => .onError (mappingArgs path m)) =
      r.errorMappings := by
    refine (List.filterMap_congr fun m member => ?_).trans List.filterMap_some
    simp [read m member,Except.toOption]
  simp only [body,List.filterMap_append,List.filterMap_map,written]
  split_ifs <;> simp [Function.comp_def,List.filterMap_cons]

theorem body_provider : (body path marked r).filterMap Line.provider? =
    if r.provider = "" then [] else [r.provider] := by
  simp only [body,List.filterMap_append,List.filterMap_map]
  split_ifs <;> simp [Function.comp_def,List.filterMap_cons]

theorem body_subjects (each : ∀ s ∈ r.subject, Word s) :
    (body path marked r).flatMap Line.subjects = r.subject := by
  have silent {α : Type} (l : List α) : l.flatMap (fun _ => ([] : List String)) = [] := by
    simp [List.flatMap_eq_nil_iff]
  simp only [body,List.flatMap_append,List.flatMap_map,Line.subjects,silent]
  by_cases some : r.subject = []
  · split_ifs <;> simp [some,Line.subjects]
  · have read : split ' ' (words r.subject) = r.subject := split_words some each
    split_ifs <;> simp [Line.subjects,read]

theorem body_redirect : decide (.redirect ∈ body path marked r) = r.redirectToPrimary := by
  have redirects : .redirect ∈ body path marked r ↔ r.redirectToPrimary = true := by simp [mem_body]
  simp [redirects]

attribute [ext] Route

/-- The block of a route stands for the route. -/
theorem block_route (unicode : UnicodeLower lower) (writable : RouteWritable path parseURL r) (marked : Bool) :
    (block path marked r).route lower parseURL = r := by
  have headers : ∀ h ∈ r.headers, parseHeader lower (headerArgs h) = .ok h := fun h member =>
    (parseHeader_args unicode (writable.headers h member)).1
  have mappings : ∀ m ∈ r.errorMappings, parseOnError parseURL (mappingArgs path m) = .ok m := fun m member =>
    (parseOnError_args (writable.mappings m member)).1
  have domains : split ' ' (words r.domains) = r.domains := split_words r.named writable.domains
  have provider : ((body path marked r).filterMap Line.provider?).getLastD "" = r.provider := by
    rw [body_provider]
    split_ifs with none
    · exact none.symm
    · rfl
  apply Route.ext
  · exact domains
  · exact body_upstreams
  · exact body_subjects writable.subject
  · exact body_headers headers
  · exact body_mappings mappings
  · exact provider
  · exact body_redirect
  · exact writable.unchecked.1.symm
  · exact writable.unchecked.2.symm

theorem count_map_ne {a : Line} {g : α → Line} (ne : ∀ x, g x ≠ a) (l : List α) : (l.map g).count a = 0 := by
  rw [List.count_eq_zero,List.mem_map]
  rintro ⟨x,_,same⟩
  exact ne x same

theorem count_redirect : (body path marked r).count .redirect ≤ 1 := by
  simp only [body,List.count_append]
  split_ifs <;> simp [count_map_ne]

theorem count_fallback : (body path marked r).count .fallback = if marked then 1 else 0 := by
  simp only [body,List.count_append]
  split_ifs <;> simp [count_map_ne]

/-- Of providers there is no more than one. -/
theorem pairwise_provider {l : List Line} (once : (l.filterMap Line.provider?).length ≤ 1) :
    l.Pairwise fun line later => ∀ args args', line = .provider args → later = .provider args' → args = "" := by
  induction l with
  | nil => exact .nil
  | cons line rest ih =>
    refine .cons (fun later member args args' here there => ?_) (ih ?_)
    · subst here there
      have second : args' ∈ rest.filterMap Line.provider? := List.mem_filterMap.mpr ⟨_,member,rfl⟩
      have some := List.length_pos_of_mem second
      simp only [List.filterMap_cons,Line.provider?,List.length_cons] at once
      omega
    · rw [List.filterMap_cons] at once
      split at once
      · exact once
      · simp only [List.length_cons] at once
        omega

/-- And is in order. -/
theorem block_wellFormed (writable : RouteWritable path parseURL r) (marked : Bool) :
    (block path marked r).WellFormed where
  provider := by
    refine pairwise_provider ?_
    rw [block,body_provider]
    split_ifs <;> simp
  redirect := count_redirect
  domains := by
    intro member
    have redirects : r.redirectToPrimary = true := by simpa [block,mem_body] using member
    rw [block,split_words r.named writable.domains]
    exact writable.redirect redirects
  upstream := by
    obtain ⟨u,inside⟩ := List.exists_mem_of_ne_nil _ writable.upstreams.1
    exact ⟨u.host,mem_body.mpr (.inl ⟨u,inside,rfl⟩)⟩

theorem body_fine (unicode : UnicodeLower lower) (writable : RouteWritable path parseURL r) (marked : Bool) :
    ∀ line ∈ body path marked r, line.Writable ∧ line.Fine lower parseURL ∧ ∀ args, line ≠ .route args := by
  intro line member
  rcases mem_body.mp member with ⟨u,inside,rfl⟩ | ⟨some,rfl⟩ | ⟨h,inside,rfl⟩ | ⟨m,inside,rfl⟩ | ⟨some,rfl⟩ |
    ⟨_,rfl⟩ | ⟨_,rfl⟩
  · exact ⟨writable.upstreams.2 u inside,trivial,by simp⟩
  · have phrase := words_phrase some writable.subject
    exact ⟨phrase,phrase.1,by simp⟩
  · obtain ⟨parsed,phrase⟩ := parseHeader_args unicode (writable.headers h inside)
    exact ⟨phrase,⟨h,parsed⟩,by simp⟩
  · obtain ⟨parsed,phrase⟩ := parseOnError_args (writable.mappings m inside)
    exact ⟨phrase,⟨m,parsed⟩,by simp⟩
  · exact ⟨writable.provider some,trivial,by simp⟩
  · exact ⟨trivial,trivial,by simp⟩
  · exact ⟨trivial,trivial,by simp⟩

end Routes

section Tables

variable (path : ErrorMapping → String)

def onward : Option Nat → Option Nat
  | some (n + 1) => some n
  | _ => none

def tableBlocks : List (Route K) → Option Nat → List Block
  | [], _ => []
  | r :: rest, fallback => block path (fallback == some 0) r :: tableBlocks rest (onward fallback)

def Block.lines (b : Block) : List Line := .route b.args :: b.body

def tableLines (routes : List (Route K)) (fallback : Option Nat) : List Line :=
  (tableBlocks path routes fallback).flatMap Block.lines

def write (routes : List (Route K)) (fallback : Option Nat) : List UInt8 :=
  Bufio.written ((tableLines path routes fallback).map Line.text)

variable {path}

theorem blocks_append {front : List Line} (inside : ∀ line ∈ front, ∀ args, line ≠ .route args) (rest : List Line) :
    blocks (front ++ rest) = (front ++ (blocks rest).1,(blocks rest).2) := by
  induction front with
  | nil => rfl
  | cons line front ih =>
    obtain ⟨here,later⟩ := List.forall_mem_cons.mp inside
    rw [List.cons_append,blocks_line here,ih later]
    rfl

/-- Blocks are told apart by their `route` lines. -/
theorem blocks_lines {bs : List Block} (inside : ∀ b ∈ bs, ∀ line ∈ b.body, ∀ args, line ≠ .route args) :
    blocks (bs.flatMap Block.lines) = ([],bs) := by
  induction bs with
  | nil => rfl
  | cons b bs ih =>
    obtain ⟨here,later⟩ := List.forall_mem_cons.mp inside
    rw [List.flatMap_cons,Block.lines,List.cons_append,blocks,blocks_append here,ih later,List.append_nil]

theorem mem_tableBlocks (member : b ∈ tableBlocks path routes fallback) :
    ∃ r ∈ (routes : List (Route K)), ∃ marked, b = block path marked r := by
  induction routes generalizing fallback with
  | nil => cases member
  | cons r rest ih =>
    rcases List.mem_cons.mp member with rfl | later
    · exact ⟨r,List.mem_cons_self,_,rfl⟩
    · obtain ⟨r',inside,marked,same⟩ := ih later
      exact ⟨r',List.mem_cons_of_mem _ inside,marked,same⟩

theorem tableBlocks_routes (unicode : UnicodeLower lower)
    (writable : ∀ r ∈ (routes : List (Route K)), RouteWritable path parseURL r) (fallback : Option Nat) :
    (tableBlocks path routes fallback).map (Block.route lower parseURL) = routes := by
  induction routes generalizing fallback with
  | nil => rfl
  | cons r rest ih =>
    obtain ⟨here,later⟩ := List.forall_mem_cons.mp writable
    rw [tableBlocks,List.map_cons,block_route unicode here,ih later]

theorem tableLines_cons (r : Route K) (rest : List (Route K)) (fallback : Option Nat) :
    tableLines path (r :: rest) fallback =
      .route (words r.domains) :: (body path (fallback == some 0) r ++ tableLines path rest (onward fallback)) := by
  simp [tableLines,tableBlocks,Block.lines,block]

variable (path) in
/-- The fallback is found where it is marked, and nothing else is marked. -/
theorem tableBlocks_fallback {routes : List (Route K)} (within : ∀ i, fallback = some i → i < routes.length) :
    fallbackBlock (tableBlocks path routes fallback) = fallback ∧
      (tableLines path routes fallback).count .fallback = if fallback.isSome then 1 else 0 := by
  induction routes generalizing fallback with
  | nil =>
    cases fallback with
    | none => exact ⟨rfl,rfl⟩
    | some i => exact absurd (within i rfl) (Nat.not_lt_zero i)
  | cons r rest ih =>
    have marked : .fallback ∈ (block path (fallback == some 0) r).body ↔ fallback = some 0 := by
      simp [block,mem_body]
    rw [tableBlocks,fallbackBlock_cons,tableLines_cons,List.count_cons_of_ne (by simp),List.count_append,
      count_fallback]
    match fallback with
    | none =>
      obtain ⟨found,once⟩ := ih (show ∀ i, none = some i → i < rest.length by simp)
      simp_all [onward]
    | some 0 =>
      obtain ⟨found,once⟩ := ih (show ∀ i, none = some i → i < rest.length by simp)
      simp_all [onward]
    | some (n + 1) =>
      have inside : n < rest.length := by
        have bound := within (n + 1) rfl
        rw [List.length_cons] at bound
        omega
      obtain ⟨found,once⟩ := ih (show ∀ i, some n = some i → i < rest.length by simpa using inside)
      simp_all [onward]

/-- Lines of a table are directives, and none but the first of a block opens one. -/
theorem tableLines_writable (unicode : UnicodeLower lower)
    (writable : ∀ r ∈ (routes : List (Route K)), RouteWritable path parseURL r) :
    ∀ line ∈ tableLines path routes fallback, line.Writable ∧ line.Fine lower parseURL := by
  intro line member
  obtain ⟨b,inside,here⟩ := List.mem_flatMap.mp member
  obtain ⟨r,listed,marked,rfl⟩ := mem_tableBlocks inside
  rcases List.mem_cons.mp here with rfl | within
  · have phrase := words_phrase r.named (writable r listed).domains
    exact ⟨phrase,phrase.1⟩
  · obtain ⟨kept,fine,_⟩ := body_fine unicode (writable r listed) marked line within
    exact ⟨kept,fine⟩

/-- The text of a table has the lines that were written. -/
theorem lines_write (writable : ∀ line ∈ tableLines path (routes : List (Route K)) fallback, line.Writable)
    (short : ∀ line ∈ tableLines path routes fallback, line.text.toList.length < Bufio.maxTokenSize) :
    Bufio.Fits (write path routes fallback) ∧
      Bufio.lines (write path routes fallback) = (tableLines path routes fallback).map Line.text := by
  have printable : ∀ text ∈ (tableLines path routes fallback).map Line.text,
      ∀ c ∈ text.toList, c = ' ' ∨ c.Graphic := by
    rw [List.forall_mem_map]
    exact fun line member => (text_phrase (writable line member)).2.1
  refine ⟨Bufio.fits_written printable ?_,Bufio.lines_written printable⟩
  rwa [List.forall_mem_map]

theorem parse_write_iff (unicode : UnicodeLower lower)
    (writable : ∀ r ∈ (routes : List (Route K)), RouteWritable path parseURL r)
    (short : ∀ line ∈ tableLines path routes fallback, line.text.toList.length < Bufio.maxTokenSize) :
    parse lower parseURL (write path routes fallback) none = .ok (result : List (Route K) × Option Nat) ↔
      parseLines lower parseURL ((tableLines path routes fallback).map Line.text) .empty = .ok result := by
  obtain ⟨fits,read⟩ := lines_write (fun line member => (tableLines_writable unicode writable line member).1) short
  rw [parse_ok_iff,read]
  exact ⟨fun parsed => parsed.2.2,fun parsed => ⟨fits,rfl,parsed⟩⟩

/-- And these lines are the table. -/
theorem parseLines_table (unicode : UnicodeLower lower)
    (writable : ∀ r ∈ (routes : List (Route K)), RouteWritable path parseURL r)
    (within : ∀ i, fallback = some i → i < routes.length) :
    parseLines lower parseURL ((tableLines path routes fallback).map Line.text) .empty = .ok (routes,fallback) := by
  have lines : ∀ line ∈ tableLines path routes fallback, line.Writable ∧ line.Fine lower parseURL :=
    tableLines_writable unicode writable
  have read : ((tableLines path routes fallback).map Line.text).map (readLine lower) =
      tableLines path routes fallback := by
    have each : ∀ line ∈ tableLines path routes fallback, (readLine lower ∘ Line.text) line = id line := by
      intro line member
      rw [Function.comp_apply,readLine_text unicode (lines line member).1,id_eq]
    rw [List.map_map,List.map_congr_left each,List.map_id]
  have apart : blocks (tableLines path routes fallback) = ([],tableBlocks path routes fallback) := by
    refine blocks_lines fun b inside line member => ?_
    obtain ⟨r,listed,marked,rfl⟩ := mem_tableBlocks inside
    exact (body_fine unicode (writable r listed) marked line member).2.2
  obtain ⟨found,once⟩ := tableBlocks_fallback path within
  rw [parseLines_empty unicode,read,apart]
  refine ⟨fun line member => (lines line member).2,by simp,fun b inside => ?_,?_,?_,found⟩
  · obtain ⟨r,listed,marked,rfl⟩ := mem_tableBlocks inside
    exact (follows_newRoute _).mpr (block_wellFormed (writable r listed) marked)
  · rw [once]
    split <;> simp
  · simp only [extend_newRoute]
    exact tableBlocks_routes unicode writable fallback

/-- Every table that can be written is read back from its text, with its fallback. -/
theorem parse_write (unicode : UnicodeLower lower) (parseURL : String → Option (String × String))
    (path : ErrorMapping → String) (routes : List (Route K)) (fallback : Option Nat)
    (writable : ∀ r ∈ routes, RouteWritable path parseURL r) (within : ∀ i, fallback = some i → i < routes.length)
    (short : ∀ line ∈ tableLines path routes fallback, line.text.toList.length < Bufio.maxTokenSize) :
    parse lower parseURL (write path routes fallback) none = .ok (routes,fallback) := by
  rw [parse_write_iff unicode writable short]
  exact parseLines_table unicode writable within

end Tables

end Centauri.Config

namespace Centauri.Sample

open Strings Config

def pagePath (m : ErrorMapping) : String := if m.path = "/down" then "down?now" else ""

def pageURL (text : String) : Option (String × String) := if text = "/down?now" then some ("/down","now") else none

def writtenRoutes : List (Route Unit) :=
  [{ domains := ["a.org","www.a.org"],named := List.cons_ne_nil _ _,upstreams := [⟨"h:80"⟩,⟨"h:81"⟩],subject := []
     headers := [⟨"X-Frame-Options","same origin",.replace⟩,⟨"Server","",.delete⟩]
     errorMappings := [⟨502,"pages:80","/down","now"⟩,⟨404,"pages:80","",""⟩],provider := "",redirectToPrimary := true
     certificate := none,certificateStatus := .notChecked },
    { domains := ["b.org"],named := List.cons_ne_nil _ _,upstreams := [⟨"h:82"⟩],subject := ["*.b.org"]
      provider := "selfsigned",certificate := none,certificateStatus := .notChecked }]

theorem writtenRoutes_writable : ∀ r ∈ writtenRoutes, RouteWritable pagePath pageURL r := by
  intro r member
  rcases List.mem_cons.mp member with rfl | member
  · refine ⟨by decide,by decide,by decide,?_,?_,by decide,by decide,rfl,rfl⟩
    · intro h inside
      rcases List.mem_cons.mp inside with rfl | inside
      · exact ⟨by decide,by decide⟩
      · obtain rfl := List.mem_singleton.mp inside
        exact ⟨by decide,rfl⟩
    · intro m inside
      rcases List.mem_cons.mp inside with rfl | inside
      · exact ⟨by decide,⟨by decide,by simp⟩,.inr ⟨by decide,by decide,by decide⟩⟩
      · obtain rfl := List.mem_singleton.mp inside
        exact ⟨by decide,⟨by decide,by simp⟩,.inl ⟨by decide,rfl,rfl⟩⟩
  · obtain rfl := List.mem_singleton.mp member
    exact ⟨by decide,by decide,by decide,by simp,by simp,by decide,by decide,rfl,rfl⟩

/-- Two routes, of which the second is the fallback, read back from their text. -/
theorem writtenRoutes_parsed :
    parse Char.toLower pageURL (write pagePath writtenRoutes (some 1)) none = .ok (writtenRoutes,some 1) :=
  parse_write .toLower pageURL pagePath writtenRoutes (some 1) writtenRoutes_writable
    (by simp [writtenRoutes]) (by decide +kernel)

end Centauri.Sample
