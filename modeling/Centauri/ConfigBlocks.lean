import Centauri.ConfigParser

/-! The route language as its blocks: what each line says, which texts are well formed, and
the route a block stands for. `parse_iff` holds the loop of `Parse` to it. -/
namespace Centauri.Config

inductive Line where
  | ignored
  | route (args : String)
  | upstream (args : String)
  | header (args : String)
  | onError (args : String)
  | provider (args : String)
  | fallback
  | redirect
  | subject (args : String)
  | unknown
  deriving DecidableEq, Repr

/-- Empty lines and comments are set aside first; of the rest the part up to the first
space, lower-cased, is the directive. -/
def readLine (lower : Char → Char) (text : String) : Line :=
  let line := Strings.trimSpace text
  if line = "" ∨ line = "#" ∨ ['#',' '] <+: line.toList then .ignored
  else
    let (directive,args,_) := Strings.cut ' ' line
    match Strings.toLower lower directive with
    | "route" => .route args
    | "upstream" => .upstream args
    | "header" => .header args
    | "on_error" => .onError args
    | "provider" => .provider args
    | "fallback" => .fallback
    | "redirect-to-primary" => .redirect
    | "subject" => .subject args
    | _ => .unknown

structure Block where
  args : String
  body : List Line
  deriving DecidableEq, Repr

def blocks : List Line → List Line × List Block
  | [] => ([],[])
  | .route args :: rest => ([],⟨args,(blocks rest).1⟩ :: (blocks rest).2)
  | line :: rest => (line :: (blocks rest).1,(blocks rest).2)

namespace Line

@[simp] def upstream? : Line → Option Upstream
  | .upstream args => some ⟨args⟩
  | _ => none

@[simp] def provider? : Line → Option String
  | .provider args => some args
  | _ => none

@[simp] def subjects : Line → List String
  | .subject args => Strings.split ' ' args
  | _ => []

variable (lower : Char → Char) (parseURL : String → Option (String × String))

@[simp] def header? : Line → Option Header
  | .header args => (parseHeader lower args).toOption
  | _ => none

@[simp] def mapping? : Line → Option ErrorMapping
  | .onError args => (parseOnError parseURL args).toOption
  | _ => none

@[simp] def Fine : Line → Prop
  | .route args => args ≠ ""
  | .subject args => args ≠ ""
  | .header args => ∃ header, parseHeader lower args = .ok header
  | .onError args => ∃ mapping, parseOnError parseURL args = .ok mapping
  | .unknown => False
  | _ => True

end Line

variable {K : Type} (lower : Char → Char) (parseURL : String → Option (String × String))

/-- No provider follows one that is not empty, there is at most one `redirect-to-primary`
and only for several domains, and there is an upstream. -/
structure Block.WellFormed (b : Block) : Prop where
  provider : b.body.Pairwise fun line later => ∀ args args', line = .provider args →
    later = .provider args' → args = ""
  redirect : b.body.count .redirect ≤ 1
  domains : .redirect ∈ b.body → 2 ≤ (Strings.split ' ' b.args).length
  upstream : ∃ args, .upstream args ∈ b.body

structure WellFormed (text : List Line) : Prop where
  lines : ∀ line ∈ text, line.Fine lower parseURL
  opened : ∀ line ∈ (blocks text).1, line = .ignored
  blocks : ∀ b ∈ (blocks text).2, b.WellFormed
  fallback : text.count .fallback ≤ 1

def Block.route (b : Block) : Route K :=
  { newRoute b.args with
    upstreams := b.body.filterMap Line.upstream?
    subject := b.body.flatMap Line.subjects
    headers := b.body.filterMap (Line.header? lower)
    errorMappings := b.body.filterMap (Line.mapping? parseURL)
    provider := (b.body.filterMap Line.provider?).getLastD ""
    redirectToPrimary := decide (.redirect ∈ b.body) }

def fallbackBlock (bs : List Block) : Option Nat := bs.findIdx? fun b => decide (.fallback ∈ b.body)

section Lines

variable {lower : Char → Char} {parseURL : String → Option (String × String)}

inductive Reads (directive line args : String) : Line → Prop where
  | empty : directive = "" → line = "" → Reads directive line args .ignored
  | comment : directive = "#" → Reads directive line args .ignored
  | route : directive = "route" → Reads directive line args (.route args)
  | upstream : directive = "upstream" → Reads directive line args (.upstream args)
  | header : directive = "header" → Reads directive line args (.header args)
  | onError : directive = "on_error" → Reads directive line args (.onError args)
  | provider : directive = "provider" → Reads directive line args (.provider args)
  | fallback : directive = "fallback" → Reads directive line args .fallback
  | redirect : directive = "redirect-to-primary" → Reads directive line args .redirect
  | subject : directive = "subject" → Reads directive line args (.subject args)
  | unknown : line ≠ "" → directive ∉ ["route","upstream","header","on_error","provider","fallback",
      "redirect-to-primary","subject","#"] → Reads directive line args .unknown

theorem reads (unicode : UnicodeLower lower) (text : String) :
    Reads (Strings.toLower lower (Strings.cut ' ' (Strings.trimSpace text)).1) (Strings.trimSpace text)
      (Strings.cut ' ' (Strings.trimSpace text)).2.1 (readLine lower text) := by
  have listed (s : String) : s = "#" ↔ s.toList = ['#'] := by
    rw [← String.toList_inj]
    exact Iff.rfl
  have comment : Strings.toLower lower (Strings.cut ' ' (Strings.trimSpace text)).1 = "#" ↔
      Strings.trimSpace text = "#" ∨ ['#',' '] <+: (Strings.trimSpace text).toList := by
    rw [listed,listed,Strings.toLower_singleton unicode (by decide) (by decide) (by decide),
      Strings.cut_singleton (by decide)]
  have empty (none : Strings.trimSpace text = "") :
      Strings.toLower lower (Strings.cut ' ' (Strings.trimSpace text)).1 = "" := by
    rw [none]
    rfl
  unfold readLine
  dsimp only
  generalize Strings.toLower lower (Strings.cut ' ' (Strings.trimSpace text)).1 = directive at *
  generalize (Strings.cut ' ' (Strings.trimSpace text)).2.1 = args
  generalize Strings.trimSpace text = line at *
  split
  next set =>
    rcases set with none | hash
    · exact .empty (empty none) none
    · exact .comment (comment.mpr hash)
  next plain =>
    rw [not_or] at plain
    have uncommented := mt comment.mp plain.2
    split
    · exact .route rfl
    · exact .upstream rfl
    · exact .header rfl
    · exact .onError rfl
    · exact .provider rfl
    · exact .fallback rfl
    · exact .redirect rfl
    · exact .subject rfl
    next =>
      apply Reads.unknown plain.1
      simp only [List.mem_cons,List.not_mem_nil,or_false,not_or]
      exact ⟨by assumption,by assumption,by assumption,by assumption,by assumption,by assumption,
        by assumption,by assumption,uncommented⟩

theorem Reads.of_route (read : Reads directive line given (.route args)) :
    directive = "route" ∧ given = args := by
  cases read with
  | route directive => exact ⟨directive,rfl⟩

def Line.apply (lower : Char → Char) (parseURL : String → Option (String × String)) (line : Line)
    (route : Route K) : Route K :=
  { route with
    upstreams := route.upstreams ++ line.upstream?.toList
    subject := route.subject ++ line.subjects
    headers := route.headers ++ (line.header? lower).toList
    errorMappings := route.errorMappings ++ (line.mapping? parseURL).toList
    provider := line.provider?.getD route.provider
    redirectToPrimary := route.redirectToPrimary || decide (line = .redirect) }

@[simp] def Line.Allowed (route : Route K) : Line → Prop
  | .provider _ => route.provider = ""
  | .redirect => route.redirectToPrimary = false ∧ 2 ≤ route.domains.length
  | _ => True

theorem parseLine_ignored (unicode : UnicodeLower lower) (ignored : readLine lower text = .ignored)
    (p : Progress K) : parseLine lower parseURL text p = .ok p := by
  have read := reads unicode text
  rw [ignored] at read
  cases read with
  | empty directive none =>
    simp only [parseLine,directive]
    simp [none]
  | comment directive => simp only [parseLine,directive]

/-- A line inside a block. -/
theorem parseLine_within (unicode : UnicodeLower lower) (inside : ∀ args, readLine lower text ≠ .route args)
    (done : List (Route K)) (route : Route K) (fallback : Option Nat) :
    parseLine lower parseURL text ⟨done,some route,fallback⟩ = .ok q ↔
      (readLine lower text).Fine lower parseURL ∧ (readLine lower text).Allowed route ∧
      (readLine lower text = .fallback → fallback = none) ∧
      ⟨done,some ((readLine lower text).apply lower parseURL route),
        if readLine lower text = .fallback then some done.length else fallback⟩ = q := by
  have read := reads unicode text
  have ignored (set : readLine lower text = .ignored) :
      parseLine lower parseURL text ⟨done,some route,fallback⟩ = .ok ⟨done,some route,fallback⟩ :=
    parseLine_ignored unicode set _
  generalize readLine lower text = line at *
  cases read with
  | empty => simp [ignored,Line.apply]
  | comment => simp [ignored,Line.apply]
  | route directive => exact absurd rfl (inside _)
  | upstream directive => simp [parseLine,directive,Progress.amend,Line.apply]
  | header directive =>
    cases parsed : parseHeader lower (Strings.cut ' ' (Strings.trimSpace text)).2.1 with
    | error message => simp [parseLine,directive,Progress.amend,parsed]
    | ok header => simp [parseLine,directive,Progress.amend,parsed,Line.apply,Except.toOption]
  | onError directive =>
    cases parsed : parseOnError parseURL (Strings.cut ' ' (Strings.trimSpace text)).2.1 with
    | error message => simp [parseLine,directive,Progress.amend,parsed]
    | ok mapping => simp [parseLine,directive,Progress.amend,parsed,Line.apply,Except.toOption]
  | provider directive =>
    by_cases free : route.provider = ""
    · simp [parseLine,directive,Progress.amend,free,Line.apply]
    · simp [parseLine,directive,Progress.amend,free]
  | fallback directive =>
    cases fallback with
    | none => simp [parseLine,directive,Line.apply]
    | some position => simp [parseLine,directive]
  | redirect directive =>
    by_cases again : route.redirectToPrimary = true
    · simp [parseLine,directive,Progress.amend,again]
    · by_cases single : route.domains.length < 2
      · simp [parseLine,directive,Progress.amend,again,single]
      · have several : 2 ≤ route.domains.length := Nat.not_lt.mp single
        simp [parseLine,directive,Progress.amend,again,single,several,Line.apply]
  | subject directive =>
    by_cases none : (Strings.cut ' ' (Strings.trimSpace text)).2.1 = ""
    · simp [parseLine,directive,Progress.amend,none]
    · simp [parseLine,directive,Progress.amend,none,Line.apply]
  | unknown some other =>
    simp only [List.mem_cons,List.not_mem_nil,or_false,not_or] at other
    simp [parseLine,other,some]

/-- A line that starts a block ends the one before. -/
theorem parseLine_route (unicode : UnicodeLower lower) (opens : readLine lower text = .route args)
    (p : Progress K) : parseLine lower parseURL text p = .ok q ↔
      args ≠ "" ∧ ∃ routes, p.finish = .ok routes ∧ ⟨routes,some (newRoute args),p.fallback⟩ = q := by
  obtain ⟨directive,given⟩ := (opens ▸ reads unicode text).of_route
  simp only [parseLine,directive,given]
  by_cases none : args = ""
  · simp [none]
  · cases finished : p.finish with
    | error message => simp [none]
    | ok routes => simp [none]

/-- Before the first block nothing but ignored lines gets by. -/
theorem parseLine_before (unicode : UnicodeLower lower) (outside : ∀ args, readLine lower text ≠ .route args)
    (done : List (Route K)) (fallback : Option Nat) :
    parseLine lower parseURL text ⟨done,none,fallback⟩ = .ok q ↔
      readLine lower text = .ignored ∧ ⟨done,none,fallback⟩ = q := by
  have read := reads unicode text
  have ignored (set : readLine lower text = .ignored) :
      parseLine lower parseURL text ⟨done,none,fallback⟩ = .ok ⟨done,none,fallback⟩ :=
    parseLine_ignored unicode set _
  generalize readLine lower text = line at *
  cases read with
  | empty => simp [ignored]
  | comment => simp [ignored]
  | route directive => exact absurd rfl (outside _)
  | upstream directive => simp [parseLine,directive,Progress.amend]
  | header directive => simp [parseLine,directive,Progress.amend]
  | onError directive => simp [parseLine,directive,Progress.amend]
  | provider directive => simp [parseLine,directive,Progress.amend]
  | fallback directive => simp [parseLine,directive]
  | redirect directive => simp [parseLine,directive,Progress.amend]
  | subject directive => simp [parseLine,directive,Progress.amend]
  | unknown some other =>
    simp only [List.mem_cons,List.not_mem_nil,or_false,not_or] at other
    simp [parseLine,other,some]

theorem parseLines_cons (p : Progress K) : parseLines lower parseURL (text :: rest) p = .ok result ↔
    ∃ q, parseLine lower parseURL text p = .ok q ∧ parseLines lower parseURL rest q = .ok result := by
  rw [parseLines]
  generalize parseLine lower parseURL text p = parsed
  cases parsed with
  | error message => simp [bind,Except.bind]
  | ok q => simp [bind,Except.bind]

end Lines

section Blocks

variable {lower : Char → Char} {parseURL : String → Option (String × String)}

section

variable (lower parseURL)

def extend (route : Route K) (body : List Line) : Route K :=
  body.foldl (fun route line => line.apply lower parseURL route) route

/-- The lines of a body may follow one another after what the route has already, and leave
it with an upstream. -/
def Follows : Route K → List Line → Prop
  | route, [] => route.upstreams ≠ []
  | route, line :: rest => line.Allowed route ∧ Follows (line.apply lower parseURL route) rest

/-- What is asked of the rest of a text from inside a block. -/
structure Remains (route : Route K) (fallback : Option Nat) (text : List Line) : Prop where
  lines : ∀ line ∈ text, line.Fine lower parseURL
  body : Follows lower parseURL route (blocks text).1
  blocks : ∀ b ∈ (blocks text).2, Follows lower parseURL (newRoute b.args : Route K) b.body
  fallback : text.count .fallback + (if fallback.isSome then 1 else 0) ≤ 1

def outcome (done : List (Route K)) (route : Route K) (fallback : Option Nat) (text : List Line) :
    List (Route K) × Option Nat :=
  (done ++ extend lower parseURL route (blocks text).1 ::
      (blocks text).2.map fun b => extend lower parseURL (newRoute b.args) b.body,
    fallback.or ((fallbackBlock (⟨"",(blocks text).1⟩ :: (blocks text).2)).map (· + done.length)))

end

theorem remains_route (opens : line = .route args) (route : Route K) (fallback : Option Nat) :
    Remains lower parseURL route fallback (line :: rest) ↔
      args ≠ "" ∧ route.upstreams ≠ [] ∧ Remains lower parseURL (newRoute args : Route K) fallback rest := by
  subst opens
  constructor
  · rintro ⟨lines,body,later,once⟩
    simp only [blocks,List.forall_mem_cons] at body later lines
    exact ⟨lines.1,body,lines.2,later.1,later.2,by simpa using once⟩
  · rintro ⟨named,upstreams,lines,body,later,once⟩
    refine ⟨?_,?_,?_,by simpa using once⟩
    · simpa [List.forall_mem_cons] using ⟨named,lines⟩
    · exact upstreams
    · simpa [blocks] using ⟨body,later⟩

theorem blocks_line (inside : ∀ args, line ≠ .route args) :
    blocks (line :: rest) = (line :: (blocks rest).1,(blocks rest).2) := by
  cases line with
  | route args => exact absurd rfl (inside args)
  | _ => rfl

theorem remains_line (inside : ∀ args, line ≠ .route args) (position : Nat) (route : Route K)
    (fallback : Option Nat) :
    Remains lower parseURL route fallback (line :: rest) ↔
      line.Fine lower parseURL ∧ line.Allowed route ∧ (line = .fallback → fallback = none) ∧
      Remains lower parseURL (line.apply lower parseURL route)
        (if line = .fallback then some position else fallback) rest := by
  have count : (line :: rest).count .fallback + (if fallback.isSome then 1 else 0) ≤ 1 ↔
      (line = .fallback → fallback = none) ∧ rest.count .fallback +
        (if (if line = .fallback then some position else fallback).isSome then 1 else 0) ≤ 1 := by
    by_cases here : line = .fallback
    · cases fallback with
      | none => simp [here]
      | some earlier => simp [here]
    · simp [here]
  constructor
  · rintro ⟨lines,body,later,once⟩
    rw [blocks_line inside] at body later
    rw [List.forall_mem_cons] at lines
    obtain ⟨first,others⟩ := count.mp once
    exact ⟨lines.1,body.1,first,lines.2,body.2,later,others⟩
  · rintro ⟨fine,allowed,first,lines,body,later,others⟩
    refine ⟨List.forall_mem_cons.mpr ⟨fine,lines⟩,?_,?_,count.mpr ⟨first,others⟩⟩
    · rw [blocks_line inside]
      exact ⟨allowed,body⟩
    · rw [blocks_line inside]
      exact later

theorem fallbackBlock_cons (b : Block) (bs : List Block) : fallbackBlock (b :: bs) =
    if .fallback ∈ b.body then some 0 else (fallbackBlock bs).map (· + 1) := by
  simp [fallbackBlock,List.findIdx?_cons]

theorem outcome_route (done : List (Route K)) (route : Route K) (fallback : Option Nat) :
    outcome lower parseURL done route fallback (.route args :: rest) =
      outcome lower parseURL (done ++ [route]) (newRoute args) fallback rest := by
  have shifted : (fallbackBlock (⟨"",[]⟩ :: ⟨args,(blocks rest).1⟩ :: (blocks rest).2)).map (· + done.length) =
      (fallbackBlock (⟨"",(blocks rest).1⟩ :: (blocks rest).2)).map (· + (done ++ [route]).length) := by
    have next : (fun i => i + done.length) ∘ (fun i => i + 1) = fun i => i + (done ++ [route]).length := by
      funext i
      simp only [Function.comp_apply,List.length_append,List.length_singleton]
      omega
    rw [fallbackBlock_cons,if_neg List.not_mem_nil,Option.map_map,next,fallbackBlock_cons,
      fallbackBlock_cons]
  simp only [outcome,blocks,shifted]
  simp [extend]

theorem outcome_line (inside : ∀ args, line ≠ .route args) (done : List (Route K)) (route : Route K)
    (fallback : Option Nat) (first : line = .fallback → fallback = none) :
    outcome lower parseURL done route fallback (line :: rest) =
      outcome lower parseURL done (line.apply lower parseURL route)
        (if line = .fallback then some done.length else fallback) rest := by
  unfold outcome
  rw [blocks_line inside]
  by_cases here : line = .fallback
  · simp [here,first here,fallbackBlock_cons,extend]
  · have other : ¬Line.fallback = line := fun eq => here eq.symm
    simp [here,other,fallbackBlock_cons,extend]

theorem finish_eq_ok {route : Route K} : Progress.finish ⟨done,some route,fallback⟩ = .ok routes ↔
    route.upstreams ≠ [] ∧ done ++ [route] = routes := by
  by_cases none : route.upstreams = []
  · simp [Progress.finish,none]
  · simp [Progress.finish,none]

/-- The rest of a text from inside a block: the block's own rest, and the blocks after it. -/
theorem parseLines_within (unicode : UnicodeLower lower) (texts : List String) (done : List (Route K))
    (route : Route K) (fallback : Option Nat) :
    parseLines lower parseURL texts ⟨done,some route,fallback⟩ = .ok result ↔
      Remains lower parseURL route fallback (texts.map (readLine lower)) ∧
      outcome lower parseURL done route fallback (texts.map (readLine lower)) = result := by
  induction texts generalizing done route fallback with
  | nil =>
    simp only [parseLines,Progress.finish,List.map_nil]
    by_cases none : route.upstreams = []
    · have lacking : ¬Remains lower parseURL route fallback [] := fun remains => remains.body none
      simp [none,lacking]
    · have remains : Remains lower parseURL route fallback [] := by
        refine ⟨by simp,none,by simp [blocks],?_⟩
        cases fallback <;> simp
      simp [none,remains,outcome,blocks,extend,fallbackBlock]
  | cons text rest ih =>
    rw [parseLines_cons,List.map_cons]
    by_cases opens : ∃ args, readLine lower text = .route args
    · obtain ⟨args,opens⟩ := opens
      rw [opens,remains_route rfl,outcome_route]
      simp only [parseLine_route unicode opens]
      constructor
      · rintro ⟨q,⟨named,routes,finished,rfl⟩,later⟩
        obtain ⟨upstreams,rfl⟩ := finish_eq_ok.mp finished
        obtain ⟨remains,leads⟩ := (ih _ _ _).mp later
        exact ⟨⟨named,upstreams,remains⟩,leads⟩
      · rintro ⟨⟨named,upstreams,remains⟩,leads⟩
        exact ⟨_,⟨named,_,finish_eq_ok.mpr ⟨upstreams,rfl⟩,rfl⟩,(ih _ _ _).mpr ⟨remains,leads⟩⟩
    · have inside (args : String) : readLine lower text ≠ .route args := fun eq => opens ⟨args,eq⟩
      rw [remains_line inside done.length]
      simp only [parseLine_within unicode inside]
      constructor
      · rintro ⟨q,⟨fine,allowed,first,rfl⟩,later⟩
        obtain ⟨remains,leads⟩ := (ih _ _ _).mp later
        exact ⟨⟨fine,allowed,first,remains⟩,(outcome_line inside _ _ _ first).trans leads⟩
      · rintro ⟨⟨fine,allowed,first,remains⟩,leads⟩
        refine ⟨_,⟨fine,allowed,first,rfl⟩,(ih _ _ _).mpr ⟨remains,?_⟩⟩
        rw [← leads,outcome_line inside _ _ _ first]

/-- A whole text. -/
theorem parseLines_empty (unicode : UnicodeLower lower) (texts : List String) :
    parseLines lower parseURL texts (.empty : Progress K) = .ok (routes,fallback) ↔
      (∀ line ∈ texts.map (readLine lower), line.Fine lower parseURL) ∧
      (∀ line ∈ (blocks (texts.map (readLine lower))).1, line = .ignored) ∧
      (∀ b ∈ (blocks (texts.map (readLine lower))).2, Follows lower parseURL (newRoute b.args : Route K) b.body) ∧
      (texts.map (readLine lower)).count .fallback ≤ 1 ∧
      ((blocks (texts.map (readLine lower))).2.map fun b => extend lower parseURL (newRoute b.args) b.body) =
        routes ∧
      fallbackBlock (blocks (texts.map (readLine lower))).2 = fallback := by
  induction texts with
  | nil => simp [parseLines,Progress.finish,Progress.empty,blocks,fallbackBlock]
  | cons text rest ih =>
    rw [parseLines_cons,List.map_cons]
    by_cases opens : ∃ args, readLine lower text = .route args
    · obtain ⟨args,opens⟩ := opens
      rw [opens]
      simp only [parseLine_route unicode opens]
      constructor
      · rintro ⟨q,⟨named,done,finished,rfl⟩,later⟩
        obtain rfl : [] = done := by simpa [Progress.finish,Progress.empty] using finished
        obtain ⟨⟨lines,body,others,once⟩,leads⟩ := (parseLines_within unicode rest _ _ _).mp later
        obtain ⟨rfl,rfl⟩ := Prod.mk.inj leads
        refine ⟨List.forall_mem_cons.mpr ⟨named,lines⟩,by simp [blocks],?_,
          by simpa [Progress.empty] using once,?_,?_⟩
        · exact List.forall_mem_cons.mpr ⟨body,others⟩
        · rfl
        · simp [blocks,fallbackBlock_cons,Progress.empty]
      · rintro ⟨lines,_,blocks',once,rfl,rfl⟩
        obtain ⟨named,lines⟩ := List.forall_mem_cons.mp lines
        obtain ⟨body,others⟩ := List.forall_mem_cons.mp blocks'
        refine ⟨_,⟨named,[],rfl,rfl⟩,(parseLines_within unicode rest _ _ _).mpr
          ⟨⟨lines,body,others,by simpa [Progress.empty] using once⟩,?_⟩⟩
        simp [outcome,blocks,fallbackBlock_cons,Progress.empty]
    · have outside (args : String) : readLine lower text ≠ .route args := fun eq => opens ⟨args,eq⟩
      rw [blocks_line outside]
      simp only [Progress.empty,parseLine_before unicode outside]
      constructor
      · rintro ⟨q,⟨ignored,rfl⟩,later⟩
        obtain ⟨lines,opened,rest⟩ := ih.mp later
        rw [ignored]
        refine ⟨List.forall_mem_cons.mpr ⟨trivial,lines⟩,List.forall_mem_cons.mpr ⟨rfl,opened⟩,?_⟩
        simpa using rest
      · rintro ⟨lines,opened,rest⟩
        obtain ⟨ignored,opened⟩ := List.forall_mem_cons.mp opened
        obtain ⟨_,lines⟩ := List.forall_mem_cons.mp lines
        rw [ignored] at rest
        exact ⟨_,⟨ignored,rfl⟩,ih.mpr ⟨lines,opened,by simpa using rest⟩⟩

/-- The body of a block, after what its route has already. -/
theorem follows_iff (route : Route K) (body : List Line) : Follows lower parseURL route body ↔
    (body.Pairwise fun line later => ∀ args args', line = .provider args → later = .provider args' →
      args = "") ∧
    (route.provider ≠ "" → ∀ args, .provider args ∉ body) ∧
    body.count .redirect + (if route.redirectToPrimary then 1 else 0) ≤ 1 ∧
    (.redirect ∈ body → 2 ≤ route.domains.length) ∧
    (route.upstreams ≠ [] ∨ ∃ args, .upstream args ∈ body) := by
  induction body generalizing route with
  | nil =>
    have once : (if route.redirectToPrimary = true then 1 else 0) ≤ 1 := by split <;> omega
    simp [Follows,once]
  | cons line rest ih =>
    rw [Follows,ih]
    cases line with
    | provider args =>
      constructor
      · rintro ⟨free,ordered,fresh,once,several,upstream⟩
        refine ⟨List.pairwise_cons.mpr ⟨?_,ordered⟩,fun taken => absurd free taken,by simpa [Line.apply] using once,
          by simpa [Line.apply] using several,by simpa [Line.apply] using upstream⟩
        intro later member first second eq eq'
        cases eq
        by_contra filled
        exact fresh filled second (eq' ▸ member)
      · rintro ⟨ordered,taken,once,several,upstream⟩
        obtain ⟨first,ordered⟩ := List.pairwise_cons.mp ordered
        refine ⟨?_,ordered,fun filled other member => filled (first _ member args other rfl rfl),
          by simpa [Line.apply] using once,by simpa [Line.apply] using several,
          by simpa [Line.apply] using upstream⟩
        by_contra filled
        exact taken filled args List.mem_cons_self
    | redirect =>
      by_cases again : route.redirectToPrimary = true
      · simp [again]
      · simp only [Line.Allowed,Line.apply,again,Bool.not_eq_true] at *
        constructor
        · rintro ⟨⟨_,several⟩,ordered,taken,once,_,upstream⟩
          exact ⟨by simpa using ordered,by simpa using taken,by simpa using once,fun _ => several,
            by simpa using upstream⟩
        · rintro ⟨ordered,taken,once,several,upstream⟩
          have several := several List.mem_cons_self
          exact ⟨⟨trivial,several⟩,by simpa using ordered,by simpa using taken,by simpa using once,
            fun _ => several,by simpa using upstream⟩
    | upstream args => simp [Line.apply]
    | _ => simp [Line.apply]

theorem extend_eq (route : Route K) (body : List Line) : extend lower parseURL route body =
    { route with
      upstreams := route.upstreams ++ body.filterMap Line.upstream?
      subject := route.subject ++ body.flatMap Line.subjects
      headers := route.headers ++ body.filterMap (Line.header? lower)
      errorMappings := route.errorMappings ++ body.filterMap (Line.mapping? parseURL)
      provider := (body.filterMap Line.provider?).getLastD route.provider
      redirectToPrimary := route.redirectToPrimary || decide (.redirect ∈ body) } := by
  induction body generalizing route with
  | nil => simp [extend]
  | cons line rest ih =>
    have first : extend lower parseURL route (line :: rest) =
        extend lower parseURL (line.apply lower parseURL route) rest := rfl
    have kept {β : Type} (part : Line → Option β) :
        (part line).toList ++ rest.filterMap part = (line :: rest).filterMap part := by
      cases here : part line with
      | none => simp [here]
      | some value => simp [here]
    have last : (rest.filterMap Line.provider?).getLastD (line.provider?.getD route.provider) =
        ((line :: rest).filterMap Line.provider?).getLastD route.provider := by
      cases here : line.provider? with
      | none => rw [List.filterMap_cons_none here,Option.getD_none]
      | some value => rw [List.filterMap_cons_some here,List.getLastD_cons,Option.getD_some]
    have redirects : (decide (line = .redirect) || decide (.redirect ∈ rest)) =
        decide (.redirect ∈ line :: rest) := by
      simp [eq_comm]
    rw [first,ih]
    simp only [Line.apply,List.append_assoc,kept,last,Bool.or_assoc,redirects,List.flatMap_cons]

/-- A block is well formed when its lines may follow its `route` line. -/
theorem follows_newRoute (b : Block) : Follows lower parseURL (newRoute b.args : Route K) b.body ↔ b.WellFormed := by
  rw [follows_iff]
  constructor
  · rintro ⟨provider,_,redirect,domains,upstream⟩
    exact ⟨provider,by simpa [newRoute] using redirect,domains,by simpa [newRoute] using upstream⟩
  · rintro ⟨provider,redirect,domains,upstream⟩
    exact ⟨provider,by simp [newRoute],by simpa [newRoute] using redirect,domains,.inr upstream⟩

theorem extend_newRoute (b : Block) :
    extend lower parseURL (newRoute b.args) b.body = (b.route lower parseURL : Route K) := by
  rw [extend_eq,Block.route]
  simp [newRoute]

/-- The texts `Parse` accepts, and what it makes of them. -/
theorem parse_iff (unicode : UnicodeLower lower) (parseURL : String → Option (String × String))
    (data : List UInt8) (fits : Bufio.Fits data) :
    ((∃ result, parse lower parseURL data none = .ok (result : List (Route K) × Option Nat)) ↔
      WellFormed lower parseURL ((Bufio.lines data).map (readLine lower))) ∧
    ∀ routes fallback, parse lower parseURL data none = .ok ((routes,fallback) : List (Route K) × Option Nat) →
      routes = (blocks ((Bufio.lines data).map (readLine lower))).2.map (Block.route lower parseURL) ∧
      fallback = fallbackBlock (blocks ((Bufio.lines data).map (readLine lower))).2 := by
  have loop (result : List (Route K) × Option Nat) : parse lower parseURL data none = .ok result ↔
      parseLines lower parseURL (Bufio.lines data) .empty = .ok result := by
    simp only [parse,Bufio.scan_of_fits fits]
    generalize parseLines lower parseURL (Bufio.lines data) .empty = parsed
    cases parsed with
    | error message => simp
    | ok result => simp
  constructor
  · constructor
    · rintro ⟨⟨routes,fallback⟩,parsed⟩
      obtain ⟨lines,opened,follow,once,_⟩ := (parseLines_empty unicode _).mp ((loop _).mp parsed)
      exact ⟨lines,opened,fun b member => (follows_newRoute b).mp (follow b member),once⟩
    · rintro ⟨lines,opened,formed,once⟩
      refine ⟨_,(loop _).mpr ((parseLines_empty unicode _).mpr
        ⟨lines,opened,fun b member => (follows_newRoute b).mpr (formed b member),once,rfl,rfl⟩)⟩
  · intro routes fallback parsed
    obtain ⟨_,_,_,_,rfl,rfl⟩ := (parseLines_empty unicode _).mp ((loop _).mp parsed)
    simp only [extend_newRoute]
    exact ⟨trivial,trivial⟩

end Blocks

end Centauri.Config

namespace Centauri.Sample

def bytes (s : String) : List UInt8 := s.toList.map fun c => UInt8.ofNat c.toNat

def config : List UInt8 := bytes "# x\nRoute a.org b.org\r\n\tupstream h:80\n subject *.a.org\n fallback"

/-- The text is accepted, and the fallback is not nil. -/
theorem config_fallback : Bufio.Fits config ∧
    (Config.parse Char.toLower (fun _ => none) config none :
      Except String (List (Route Unit) × Option Nat)).toOption.map Prod.snd = some (some 0) := by
  decide +kernel

theorem config_parsed :
    (∃ result, Config.parse Char.toLower (fun _ => none) config none =
      .ok (result : List (Route Unit) × Option Nat)) ∧
    ∀ routes fallback, Config.parse Char.toLower (fun _ => none) config none =
        .ok ((routes,fallback) : List (Route Unit) × Option Nat) →
      routes.map (fun route => (route.domains,route.subject,route.redirectToPrimary)) =
        [(["a.org","b.org"],["*.a.org"],false)] ∧ fallback = some 0 := by
  have lines : (Bufio.lines config).map (Config.readLine Char.toLower) =
      [.ignored,.route "a.org b.org",.upstream "h:80",.subject "*.a.org",.fallback] := by decide +kernel
  obtain ⟨accepts,means⟩ := Config.parse_iff UnicodeLower.toLower (fun _ => none) config (by decide +kernel)
  rw [lines] at accepts means
  refine ⟨accepts.mpr ⟨?_,?_,?_,by decide⟩,fun routes fallback parsed => ?_⟩
  · simp
  · simp [Config.blocks]
  · simp only [Config.blocks,List.mem_singleton]
    rintro b rfl
    exact ⟨by simp,by simp,by simp,⟨"h:80",by simp⟩⟩
  · obtain ⟨rfl,rfl⟩ := means routes fallback parsed
    decide +kernel

end Centauri.Sample
