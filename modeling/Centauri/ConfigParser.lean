import Centauri.ProxyManager
import Centauri.Strings

/-! `config.Parse`. One loop over the lines carries the routes that are finished, the one
being built, and the fallback, which is a position in the list of routes the loop will have
made where the source has a pointer. -/
namespace Centauri.Config

variable {K : Type}

def showDomains (domains : List String) : String := "[" ++ " ".intercalate domains ++ "]"

def newRoute (args : String) : Route K :=
  { domains := Strings.split ' ' args,named := Strings.split_ne_nil ' ' args,upstreams := [],subject := []
    provider := "",certificate := none,certificateStatus := .notChecked }

structure Progress (K : Type) where
  routes : List (Route K)
  route : Option (Route K)
  fallback : Option Nat

namespace Progress

def empty : Progress K := ⟨[],none,none⟩

/-- The end of a block, at the next `route` line or after the last line. -/
def finish (p : Progress K) : Except String (List (Route K)) :=
  match p.route with
  | none => .ok p.routes
  | some route =>
    if route.upstreams.isEmpty then
      .error ("no upstreams specified for route " ++ showDomains route.domains)
    else .ok (p.routes ++ [route])

/-- A directive that needs a route and changes it. -/
def amend (p : Progress K) (directive line : String) (change : Route K → Except String (Route K)) :
    Except String (Progress K) :=
  match p.route with
  | none => .error (directive ++ " without route: " ++ line)
  | some route =>
    match change route with
    | .error message => .error message
    | .ok route => .ok { p with route := some route }

def domainsAt (p : Progress K) (position : Nat) : List String :=
  match (p.routes ++ p.route.toList)[position]? with
  | none => []
  | some route => route.domains

end Progress

section Parse

/- `lower` is `unicode.ToLower`; `parseURL` is `url.Parse` on a text that starts with a
slash, with the path and the raw query of its result. -/
variable (lower : Char → Char) (parseURL : String → Option (String × String))

def parseOnError (args : String) : Except String ErrorMapping :=
  match Strings.fields args with
  | [code,target] =>
    let invalidStatus := "invalid status code for on_error: " ++ code ++ " (must be 400-599)"
    match Strings.atoi code with
    | none => .error invalidStatus
    | some status =>
      if status < 400 || status > 599 then .error invalidStatus
      else
        let (host,path,found) := Strings.cut '/' target
        if host == "" then .error ("no upstream specified for on_error: " ++ args)
        else if Strings.containsAny host "?#" then
          .error ("on_error path must begin with a /: " ++ target)
        else if found && path != "" then
          match parseURL ("/" ++ path) with
          | none => .error ("invalid path for on_error: " ++ target)
          | some (targetPath,rawQuery) =>
            if rawQuery == "" && path.toList.contains '?' then
              .error ("invalid path for on_error: " ++ target)
            else .ok ⟨status,host,targetPath,rawQuery⟩
        else .ok ⟨status,host,"",""⟩
  | _ => .error ("invalid on_error line: " ++ args)

def headerWithValue (name : String) (operation : HeaderOp) (args : String) (parts : List String) :
    Except String Header :=
  match parts with
  | [_,header,value] => .ok ⟨header,value,operation⟩
  | _ => .error ("invalid header " ++ name ++ " line: " ++ args)

/-- The header that is appended to the route. `SplitN` makes at least one part. -/
def parseHeader (args : String) : Except String Header :=
  let parts := Strings.splitN ' ' 3 args
  match Strings.toLower lower (parts.headD "") with
  | "delete" =>
    match parts with
    | [_,name] => .ok ⟨name,"",.delete⟩
    | _ => .error ("invalid header delete line: " ++ args)
  | "add" => headerWithValue "add" .add args parts
  | "replace" => headerWithValue "replace" .replace args parts
  | "default" => headerWithValue "default" .default args parts
  | _ => .error ("invalid header operation: " ++ parts.headD "")

def parseLine (text : String) (p : Progress K) : Except String (Progress K) :=
  let line := Strings.trimSpace text
  let (directive,args,_) := Strings.cut ' ' line
  match Strings.toLower lower directive with
  | "route" =>
    if args == "" then .error "no domains specified for route"
    else
      match p.finish with
      | .error message => .error message
      | .ok routes => .ok ⟨routes,some (newRoute args),p.fallback⟩
  | "upstream" => p.amend "upstream" line fun route =>
      .ok { route with upstreams := route.upstreams ++ [⟨args⟩] }
  | "header" => p.amend "header" line fun route =>
      match parseHeader lower args with
      | .error message => .error message
      | .ok header => .ok { route with headers := route.headers ++ [header] }
  | "on_error" => p.amend "on_error" line fun route =>
      match parseOnError parseURL args with
      | .error message => .error message
      | .ok mapping => .ok { route with errorMappings := route.errorMappings ++ [mapping] }
  | "provider" => p.amend "provider" line fun route =>
      if route.provider != "" then
        .error ("route " ++ showDomains route.domains ++ " has multiple providers")
      else .ok { route with provider := args }
  | "fallback" =>
    match p.route with
    | none => .error ("fallback without route: " ++ line)
    | some route =>
      match p.fallback with
      | some position => .error ("multiple fallback routes specified: " ++ showDomains route.domains ++
          " and " ++ showDomains (p.domainsAt position))
      | none => .ok { p with fallback := some p.routes.length }
  | "redirect-to-primary" => p.amend "redirect-to-primary" line fun route =>
      if route.redirectToPrimary then
        .error ("multiple redirect-to-primary options specified in route " ++ showDomains route.domains)
      else if route.domains.length < 2 then
        .error ("redirect-to-primary specified with only a single domain in route " ++
          showDomains route.domains)
      else .ok { route with redirectToPrimary := true }
  | "subject" => p.amend "subject" line fun route =>
      if args == "" then
        .error ("no domains specified for subject in route " ++ showDomains route.domains)
      else .ok { route with subject := route.subject ++ Strings.split ' ' args }
  | "#" => .ok p
  | _ => if line != "" then .error ("invalid line: " ++ line) else .ok p

def parseLines : List String → Progress K → Except String (List (Route K) × Option Nat)
  | [], p => do
    let routes ← p.finish
    return (routes,p.fallback)
  | text :: rest, p => do
    let p ← parseLine lower parseURL text p
    parseLines rest p

/-- `readErr` is what ends the reader other than the end of the file. An error of the
scanner comes after those of the lines it handed out. -/
def parse (data : List UInt8) (readErr : Option String) : Except String (List (Route K) × Option Nat) :=
  let (lines,scanErr) := Bufio.scan data readErr
  match parseLines lower parseURL lines .empty with
  | .error message => .error message
  | .ok result =>
    match scanErr with
    | some message => .error message
    | none => .ok result

end Parse

end Centauri.Config
