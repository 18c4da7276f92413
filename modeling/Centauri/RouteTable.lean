import Centauri.Machine
import Centauri.ProxyManager
import Centauri.Strings

/-! The table of installed routes, how `SetRoutes` replaces it and `CheckCertificates`
keeps its certificates current. The list of routes, the map of domains and the fallback
share routes by pointer; a pointer is a position in the list here. -/
namespace Centauri

/-- The loop of `isDomainName` after the byte `last`. Bytes beyond ASCII are refused
whatever they encode, so characters stand for bytes. -/
def scanDomainName (last : Char) (nonNumeric : Bool) (partlen : Nat) : List Char → Bool
  | [] => if last == '-' || partlen > 63 then false else nonNumeric
  | c :: rest =>
    if c.isAlpha || c == '_' then scanDomainName c true (partlen + 1) rest
    else if c.isDigit then scanDomainName c nonNumeric (partlen + 1) rest
    else if c == '-' then
      if last == '.' then false else scanDomainName c true (partlen + 1) rest
    else if c == '.' then
      if last == '.' || last == '-' then false
      else if partlen > 63 || partlen == 0 then false
      else scanDomainName c nonNumeric 0 rest
    else false

def isDomainName (s : String) : Bool :=
  let l := s.toList.length
  if l == 0 || l > 254 || (l == 254 && s.toList.getLast? != some '.') then false
  else scanDomainName '.' false 0 s.toList

def isDomainChar (c : Char) : Bool := c.isAlpha || c.isDigit || c == '_' || c == '-' || c == '.'

def isLabelChar (c : Char) : Bool := c.isAlpha || c.isDigit || c == '_' || c == '-'

/-- A dot ends a label that has characters; anything else goes into the label. -/
theorem scanDomainName_cons (accepted : scanDomainName last nonNumeric partlen (c :: rest) = true) :
    (c = '.' ∧ partlen ≠ 0 ∧ scanDomainName c nonNumeric 0 rest = true) ∨
      isLabelChar c = true ∧ ∃ nonNumeric, scanDomainName c nonNumeric (partlen + 1) rest = true := by
  unfold scanDomainName at accepted
  split at accepted
  next letter =>
    refine .inr ⟨?_,true,accepted⟩
    rcases Bool.or_eq_true_iff.mp letter with letter | underscore
    · simp [isLabelChar,letter]
    · simp [isLabelChar,underscore]
  split at accepted
  next digit => exact .inr ⟨by simp [isLabelChar,digit],nonNumeric,accepted⟩
  split at accepted
  next dash =>
    split at accepted
    · cases accepted
    · exact .inr ⟨by simp [isLabelChar,dash],true,accepted⟩
  split at accepted
  next dot =>
    split at accepted
    · cases accepted
    split at accepted
    · cases accepted
    next long =>
      simp only [Bool.or_eq_true,beq_iff_eq,not_or] at long
      exact .inl ⟨beq_iff_eq.mp dot,long.2,accepted⟩
  · cases accepted

theorem scanDomainName_chars (accepted : scanDomainName last nonNumeric partlen s = true) :
    ∀ c ∈ s, isDomainChar c = true := by
  induction s generalizing last nonNumeric partlen with
  | nil => simp
  | cons c rest ih =>
    rw [List.forall_mem_cons]
    rcases scanDomainName_cons accepted with ⟨rfl,_,later⟩ | ⟨label,_,later⟩
    · exact ⟨by decide,ih later⟩
    · exact ⟨Bool.or_eq_true_iff.mpr (.inl label),ih later⟩

theorem isDomainName_chars (accepted : isDomainName s = true) : ∀ c ∈ s.toList, isDomainChar c = true := by
  unfold isDomainName at accepted
  dsimp only at accepted
  split at accepted
  · cases accepted
  · exact scanDomainName_chars accepted

/-- A domain name does not begin with a dot. -/
theorem isDomainName_head (accepted : isDomainName s = true) : s.toList ≠ '.' :: rest := by
  intro dot
  unfold isDomainName at accepted
  dsimp only at accepted
  split at accepted
  · cases accepted
  · rw [dot] at accepted
    simp [scanDomainName] at accepted

section Lowering

variable {lower : Char → Char}

theorem isDomainChar_ascii (plain : isDomainChar c = true) : c.toNat < 128 := by
  simp only [isDomainChar,Bool.or_eq_true,beq_iff_eq] at plain
  rcases plain with ((((alpha | digit) | rfl) | rfl) | rfl)
  · rcases (Bool.or_eq_true c.isUpper c.isLower).mp alpha with upper | letter
    · have bounds := (UnicodeLower.isUpper_iff c).mp upper
      omega
    · have bounds := (UnicodeLower.isLower_iff c).mp letter
      omega
  · have bounds := (UnicodeLower.isDigit_iff c).mp digit
    omega
  · decide
  · decide
  · decide

theorem isDomainName_colon (unicode : UnicodeLower lower) (accepted : isDomainName s = true) :
    ':' ∉ (Strings.toLower lower s).toList := by
  rw [Strings.toList_toLower]
  intro colon
  obtain ⟨c,member,eq⟩ := List.mem_map.mp colon
  rw [(unicode.colon c).mp eq] at member
  exact absurd (isDomainName_chars accepted ':' member) (by decide)

/-- On a domain name nothing but ASCII letters is lower-cased, and once is enough. -/
theorem isDomainName_lower (unicode : UnicodeLower lower) (accepted : isDomainName s = true) :
    Strings.toLower lower s = Strings.toLower Char.toLower s ∧
      Strings.toLower lower (Strings.toLower Char.toLower s) = Strings.toLower Char.toLower s := by
  have narrow (c : Char) (member : c ∈ s.toList) : c.toNat < 128 :=
    isDomainChar_ascii (isDomainName_chars accepted c member)
  constructor
  · exact Strings.toLower_ascii unicode narrow
  · apply congrArg String.ofList
    rw [Strings.toList_toLower,List.map_map]
    apply List.map_congr_left
    intro c member
    rw [Function.comp_apply,unicode.ascii _ (UnicodeLower.toLower_ascii (narrow c member)),
      UnicodeLower.toLower_toLower]

end Lowering

namespace RouteMap

variable {K : Type} (toLower : String → String)

def addDomains (position : Nat) : List String → (String → Option Nat) →
    Except String (String → Option Nat)
  | [], domains => .ok domains
  | domain :: rest, domains =>
    if !isDomainName domain then .error ("invalid domain name: " ++ domain)
    else addDomains position rest (Function.update domains (toLower domain) (some position))

def addRoutes : Nat → List (Route K) → (String → Option Nat) → Except String (String → Option Nat)
  | _, [], domains => .ok domains
  | position, route :: rest, domains =>
    match addDomains toLower position route.domains domains with
    | .error message => .error message
    | .ok domains => addRoutes (position + 1) rest domains

def update (routes : List (Route K)) : Except String (String → Option Nat) :=
  addRoutes toLower 0 routes fun _ => none

def Valid (routes : List (Route K)) : Prop :=
  ∀ route ∈ routes, ∀ domain ∈ route.domains, isDomainName domain = true

instance decidableValid (routes : List (Route K)) : Decidable (Valid routes) :=
  inferInstanceAs (Decidable (∀ route ∈ routes, ∀ domain ∈ route.domains, isDomainName domain = true))

def Lists (route : Route K) (key : String) : Prop := ∃ domain ∈ route.domains, toLower domain = key

variable {toLower}

theorem addDomains_ok_iff : (∃ after, addDomains toLower position names domains = .ok after) ↔
    ∀ domain ∈ names, isDomainName domain = true := by
  induction names generalizing domains with
  | nil => simp [addDomains]
  | cons domain rest ih =>
    cases valid : isDomainName domain with
    | false => simp [addDomains,valid]
    | true => simp [addDomains,valid,ih]

theorem addRoutes_ok_iff {routes : List (Route K)} :
    (∃ after, addRoutes toLower position routes domains = .ok after) ↔ Valid routes := by
  induction routes generalizing position domains with
  | nil => simp [addRoutes,Valid]
  | cons route rest ih =>
    have here : (∃ after, addDomains toLower position route.domains domains = .ok after) ↔
        ∀ domain ∈ route.domains, isDomainName domain = true := addDomains_ok_iff
    have split : Valid (route :: rest) ↔
        (∀ domain ∈ route.domains, isDomainName domain = true) ∧ Valid rest := by simp [Valid]
    rw [split,← here]
    cases added : addDomains toLower position route.domains domains with
    | error message => simp [addRoutes,added]
    | ok domains => simp [addRoutes,added,ih]

theorem addDomains_apply (added : addDomains toLower position names domains = .ok after) (key : String) :
    (∃ domain ∈ names, toLower domain = key) ∧ after key = some position ∨
      (¬∃ domain ∈ names, toLower domain = key) ∧ after key = domains key := by
  induction names generalizing domains with
  | nil =>
    cases added
    exact .inr ⟨by simp,rfl⟩
  | cons domain rest ih =>
    unfold addDomains at added
    split at added
    · cases added
    rcases ih added with ⟨⟨d,member,same⟩,found⟩ | ⟨absent,found⟩
    · exact .inl ⟨⟨d,List.mem_cons_of_mem _ member,same⟩,found⟩
    · by_cases same : toLower domain = key
      · subst same
        exact .inl ⟨⟨domain,List.mem_cons_self,rfl⟩,by rw [found,Function.update_self]⟩
      · refine .inr ⟨?_,by rw [found,Function.update_of_ne (Ne.symm same)]⟩
        rintro ⟨d,member,eq⟩
        rcases List.mem_cons.mp member with rfl | member
        · exact same eq
        · exact absent ⟨d,member,eq⟩

/-- The last route that lists a key gets it. -/
theorem addRoutes_apply {routes : List (Route K)}
    (added : addRoutes toLower position routes domains = .ok after) (key : String) :
    (∃ i route, routes[i]? = some route ∧ Lists toLower route key ∧ after key = some (position + i) ∧
      ∀ j later, routes[j]? = some later → Lists toLower later key → j ≤ i) ∨
    (∀ route ∈ routes, ¬Lists toLower route key) ∧ after key = domains key := by
  induction routes generalizing position domains with
  | nil =>
    cases added
    exact .inr ⟨by simp,rfl⟩
  | cons route rest ih =>
    unfold addRoutes at added
    split at added
    · cases added
    next middle here =>
    rcases ih added with ⟨i,owner,found,lists,value,last⟩ | ⟨absent,value⟩
    · refine .inl ⟨i + 1,owner,by simpa using found,lists,by rw [value]; congr 1; omega,?_⟩
      intro j later at_j lists'
      cases j with
      | zero => omega
      | succ j => exact Nat.succ_le_succ (last j later (by simpa using at_j) lists')
    · rcases addDomains_apply here key with ⟨lists,set⟩ | ⟨unlisted,kept⟩
      · refine .inl ⟨0,route,rfl,lists,value.trans set,?_⟩
        intro j later at_j lists'
        cases j with
        | zero => exact Nat.le_refl 0
        | succ j =>
          exact absurd lists' (absent later (List.mem_of_getElem? (by simpa using at_j)))
      · refine .inr ⟨?_,value.trans kept⟩
        intro r member
        rcases List.mem_cons.mp member with rfl | member
        · exact unlisted
        · exact absent r member

theorem update_ok_iff {routes : List (Route K)} :
    (∃ domains, update toLower routes = .ok domains) ↔ Valid routes := addRoutes_ok_iff

/-- What the map holds: for each key the last route that lists it. -/
theorem update_eq_some_iff {routes : List (Route K)} (updated : update toLower routes = .ok domains) :
    domains key = some i ↔ (∃ route, routes[i]? = some route ∧ Lists toLower route key) ∧
      ∀ j later, routes[j]? = some later → Lists toLower later key → j ≤ i := by
  rcases addRoutes_apply updated key with ⟨k,owner,found,lists,value,last⟩ | ⟨absent,value⟩
  · rw [Nat.zero_add] at value
    constructor
    · intro eq
      obtain rfl : k = i := Option.some.inj (value.symm.trans eq)
      exact ⟨⟨owner,found,lists⟩,last⟩
    · rintro ⟨⟨route,at_i,lists'⟩,greatest⟩
      have : k = i := Nat.le_antisymm (greatest k owner found lists) (last i route at_i lists')
      rw [value,this]
  · constructor
    · intro eq
      rw [value] at eq
      cases eq
    · rintro ⟨⟨route,at_i,lists⟩,_⟩
      exact absurd lists (absent route (List.mem_of_getElem? at_i))

/-- A key that some route lists is in the map, under that route or a later one. -/
theorem update_listed {routes : List (Route K)} (updated : update toLower routes = .ok domains)
    (at_i : routes[i]? = some route) (lists : Lists toLower route key) :
    ∃ j, domains key = some j ∧ i ≤ j := by
  rcases addRoutes_apply updated key with ⟨k,_,_,_,value,last⟩ | ⟨absent,_⟩
  · rw [Nat.zero_add] at value
    exact ⟨k,value,last i route at_i lists⟩
  · exact absurd lists (absent route (List.mem_of_getElem? at_i))

/-- Nothing but the domains of the routes enters the map. -/
theorem update_congr {routes routes' : List (Route K)}
    (same : routes.map Route.domains = routes'.map Route.domains) :
    update toLower routes = update toLower routes' := by
  have aligned (position : Nat) (domains : String → Option Nat) :
      addRoutes toLower position routes domains = addRoutes toLower position routes' domains := by
    induction routes generalizing routes' position domains with
    | nil =>
      obtain rfl : routes' = [] := by simpa using same.symm
      rfl
    | cons route rest ih =>
      cases routes' with
      | nil => simp at same
      | cons route' rest' =>
        simp only [List.map_cons,List.cons.injEq] at same
        simp only [addRoutes,same.1,ih same.2]
  exact aligned 0 _

end RouteMap

namespace CertificateProvider

variable {S A K : Type}

def checkCertificate (provider : Option (CertificateProvider S A K)) (a : A) (route : Route K) (s : S) :
    S × Option (Route K) :=
  match provider with
  | none => (s,some (route.setCertificate route.certificate .notRequired))
  | some p => p.updateCert a route s

theorem loadCertificate_config {provider : Option (CertificateProvider S A K)}
    (done : loadCertificate provider a route s = (s',some route')) : route'.config = route.config := by
  unfold loadCertificate at done
  split at done
  · cases done
    rfl
  · dsimp only at done
    split at done
    · cases done
      rfl
    · cases done
      rfl
    · cases done

theorem checkCertificate_config {provider : Option (CertificateProvider S A K)}
    (done : checkCertificate provider a route s = (s',some route')) : route'.config = route.config := by
  unfold checkCertificate at done
  split at done
  · cases done
    rfl
  · unfold updateCert at done
    dsimp only at done
    split at done
    · cases done
      rfl
    · exact loadCertificate_config done
    · cases done

end CertificateProvider

/-- A loop over routes that rewrites each one; `answers` is what the calls at each
position meet. -/
def forRoutes (body : A → Route K → S → S × Option (Route K)) (answers : Nat → A) :
    List (Route K) → S → S × Option (List (Route K))
  | [], s => (s,some [])
  | route :: rest, s =>
    match body (answers 0) route s with
    | (s,none) => (s,none)
    | (s,some route) =>
      match forRoutes body (fun i => answers (i + 1)) rest s with
      | (s,none) => (s,none)
      | (s,some rest) => (s,some (route :: rest))

/-- What every pass through the body does, the loop does: `Inv` is kept by the state, and
`Good` holds of the routes rewritten so far and of any other route it held of before. -/
theorem forRoutes_rule (Inv : S → Prop) (Good : S → Route K → Prop)
    {body : A → Route K → S → S × Option (Route K)} {answers : Nat → A}
    (step : ∀ i route s s' route', routes[i]? = some route → Inv s →
      body (answers i) route s = (s',some route') →
      Inv s' ∧ Good s' route' ∧ ∀ other, Good s other → Good s' other)
    (start : Inv s) (done : forRoutes body answers routes s = (s',some routes')) :
    Inv s' ∧ (∀ route ∈ routes', Good s' route) ∧ ∀ other, Good s other → Good s' other := by
  induction routes generalizing answers s routes' with
  | nil =>
    cases done
    exact ⟨start,by simp,fun _ good => good⟩
  | cons route rest ih =>
    unfold forRoutes at done
    split at done
    · cases done
    next middle route' here =>
    split at done
    · cases done
    next final rest' later =>
    cases done
    obtain ⟨kept,good,others⟩ := step 0 route s middle route' rfl start here
    obtain ⟨kept',goods,others'⟩ := ih (fun i r u u' r' at_i =>
      step (i + 1) r u u' r' (by simpa using at_i)) kept later
    refine ⟨kept',?_,fun other held => others' other (others other held)⟩
    intro r member
    rcases List.mem_cons.mp member with rfl | member
    · exact others' _ good
    · exact goods r member

/-- Nothing but certificates changes in the loop if nothing else does in its body. -/
theorem forRoutes_config {body : A → Route K → S → S × Option (Route K)} {answers : Nat → A}
    (kept : ∀ a route s s' route', body a route s = (s',some route') → route'.config = route.config)
    (done : forRoutes body answers routes s = (s',some routes')) :
    routes'.map Route.config = routes.map Route.config := by
  induction routes generalizing answers s routes' with
  | nil =>
    cases done
    rfl
  | cons route rest ih =>
    unfold forRoutes at done
    split at done
    · cases done
    next here =>
    split at done
    · cases done
    next later =>
    cases done
    rw [List.map_cons,List.map_cons,kept _ _ _ _ _ here,ih later]

theorem domains_of_config {routes routes' : List (Route K)}
    (same : routes'.map Route.config = routes.map Route.config) :
    routes'.map Route.domains = routes.map Route.domains := by
  have := congrArg (List.map Route.domains) same
  rwa [List.map_map,List.map_map] at this

structure RouteTable (K : Type) where
  routes : List (Route K)
  domains : String → Option Nat
  fallback : Option Nat

namespace RouteTable

variable {K : Type}

def empty : RouteTable K := ⟨[],fun _ => none,none⟩

def Installed (toLower : String → String) (table : RouteTable K) : Prop :=
  RouteMap.update toLower table.routes = .ok table.domains

def view (table : RouteTable K) : Routes K where
  domains key := (table.domains key).bind (table.routes[·]?)
  fallback := table.fallback.bind (table.routes[·]?)

/-- A route that is found for a domain is installed. -/
theorem routeFor_mem {table : RouteTable K} (found : table.view.routeFor toLower domain = some route) :
    route ∈ table.routes := by
  have deref (pointer : Option Nat) (read : pointer.bind (table.routes[·]?) = some route) :
      route ∈ table.routes := by
    obtain ⟨i,_,at_i⟩ := Option.bind_eq_some_iff.mp read
    exact List.mem_of_getElem? at_i
  unfold Routes.routeFor at found
  split at found
  next direct =>
    cases found
    exact deref _ direct
  next => exact deref _ found

theorem get_of_owned {table : RouteTable K} (owned : table.domains (toLower host) = some i)
    (at_i : table.routes[i]? = some route) : table.view.get toLower host = some route := by
  change (table.domains (toLower host)).bind (table.routes[·]?) = some route
  rw [owned]
  exact at_i

/-- Every domain was checked when the table was installed. -/
theorem Installed.valid {table : RouteTable K} (installed : table.Installed toLower) :
    RouteMap.Valid table.routes := RouteMap.update_ok_iff.mp ⟨_,installed⟩

/-- No domain of an installed route has a colon. -/
theorem Installed.colon_missing {lower : Char → Char} {table : RouteTable K}
    (installed : table.Installed (Strings.toLower lower)) (unicode : UnicodeLower lower)
    (colon : ':' ∈ host.toList) : table.view.get (Strings.toLower lower) host = none := by
  have unlisted : table.domains (Strings.toLower lower host) = none := by
    cases owned : table.domains (Strings.toLower lower host) with
    | none => rfl
    | some i =>
      obtain ⟨⟨route,at_i,domain,member,key⟩,_⟩ := (RouteMap.update_eq_some_iff installed).mp owned
      have valid := installed.valid route (List.mem_of_getElem? at_i) domain member
      have lowered : ':' ∈ (Strings.toLower lower domain).toList := by
        rw [key,Strings.toList_toLower]
        exact List.mem_map.mpr ⟨':',colon,(unicode.colon ':').mpr rfl⟩
      exact absurd lowered (isDomainName_colon unicode valid)
  unfold Routes.get view
  simp [unlisted]

end RouteTable

def Routes.certificateForClient (toLower : String → String)
    (provider : Option (CertificateProvider S A K)) (routes : Routes K) (serverName : String) :
    Except String (Option (TlsCertificate K)) :=
  match provider with
  | none => .error "this manager does not support obtaining certificates"
  | some _ =>
    match routes.routeFor toLower serverName with
    | none => .ok none
    | some route => .ok route.certificate

structure Proxy (S K : Type) where
  state : S
  table : RouteTable K

/-- The calls of a run. `fallback` is the position of a new route, or `none` for nil, as
`config.Parse` leaves it. -/
inductive ProxyCall (A K : Type) where
  | setRoutes (answers : Nat → A) (newRoutes : List (Route K)) (fallback : Option Nat)
  | checkCertificates (answers : Nat → A)

namespace Proxy

variable {S A K : Type} (toLower : String → String) (provider : Option (CertificateProvider S A K))

/-- The certificates of the new routes are loaded before their domains are looked at. The
check that the source starts in the background is a call of its own. -/
def setRoutes (answers : Nat → A) (newRoutes : List (Route K)) (fallback : Option Nat)
    (proxy : Proxy S K) : Proxy S K × Outcome Unit :=
  match forRoutes (CertificateProvider.loadCertificate provider) answers newRoutes proxy.state with
  | (s,none) => ({ proxy with state := s },.crashed)
  | (s,some loaded) =>
    match RouteMap.update toLower loaded with
    | .error message => ({ proxy with state := s },.err message)
    | .ok domains => (⟨s,⟨loaded,domains,fallback⟩⟩,.ok ())

def checkCertificates (answers : Nat → A) (proxy : Proxy S K) : Proxy S K × Outcome Unit :=
  match forRoutes (CertificateProvider.checkCertificate provider) answers proxy.table.routes
      proxy.state with
  | (s,none) => ({ proxy with state := s },.crashed)
  | (s,some routes) => (⟨s,{ proxy.table with routes := routes }⟩,.ok ())

def call (proxy : Proxy S K) : ProxyCall A K → Proxy S K × Outcome Unit
  | .setRoutes answers newRoutes fallback => setRoutes toLower provider answers newRoutes fallback proxy
  | .checkCertificates answers => checkCertificates provider answers proxy

/-- A run ends with the first panic. -/
def machine : Machine (Proxy S K) (ProxyCall A K) where
  Enabled proxy c := (proxy.call toLower provider c).2 ≠ .crashed
  next proxy c := (proxy.call toLower provider c).1

instance decidableEnabled (proxy : Proxy S K) (c : ProxyCall A K) :
    Decidable ((machine toLower provider).Enabled proxy c) :=
  inferInstanceAs (Decidable ((proxy.call toLower provider c).2 ≠ .crashed))

/-- What `SetRoutes` can do: the table stays, unless every domain is valid and nothing
panics. -/
theorem setRoutes_cases (toLower : String → String) (provider : Option (CertificateProvider S A K))
    (answers : Nat → A) (newRoutes : List (Route K)) (fallback : Option Nat) (proxy : Proxy S K) :
    (∃ s, setRoutes toLower provider answers newRoutes fallback proxy = ({ proxy with state := s },.crashed)) ∨
    (∃ s message, ¬RouteMap.Valid newRoutes ∧
      setRoutes toLower provider answers newRoutes fallback proxy = ({ proxy with state := s },.err message)) ∨
    ∃ s loaded domains, RouteMap.Valid newRoutes ∧ loaded.map Route.config = newRoutes.map Route.config ∧
      RouteMap.update toLower loaded = .ok domains ∧
      setRoutes toLower provider answers newRoutes fallback proxy = (⟨s,⟨loaded,domains,fallback⟩⟩,.ok ()) := by
  unfold setRoutes
  split
  next s _ => exact .inl ⟨s,rfl⟩
  next s loaded done =>
    have config := forRoutes_config
      (fun _ _ _ _ _ here => CertificateProvider.loadCertificate_config here) done
    have same : RouteMap.update toLower loaded = RouteMap.update toLower newRoutes :=
      RouteMap.update_congr (domains_of_config config)
    split
    next message refused =>
      refine .inr (.inl ⟨s,message,fun valid => ?_,rfl⟩)
      obtain ⟨domains,accepted⟩ := RouteMap.update_ok_iff.mpr valid
      rw [same,accepted] at refused
      cases refused
    next domains updated =>
      have valid := RouteMap.update_ok_iff.mp ⟨domains,same ▸ updated⟩
      exact .inr (.inr ⟨s,loaded,domains,valid,config,updated,rfl⟩)

/-- What `CheckCertificates` can do: certificates change, and nothing else in the table. -/
theorem checkCertificates_cases (provider : Option (CertificateProvider S A K)) (answers : Nat → A)
    (proxy : Proxy S K) :
    (∃ s, checkCertificates provider answers proxy = ({ proxy with state := s },.crashed)) ∨
    ∃ s routes, routes.map Route.config = proxy.table.routes.map Route.config ∧
      checkCertificates provider answers proxy = (⟨s,{ proxy.table with routes := routes }⟩,.ok ()) := by
  unfold checkCertificates
  split
  next s _ => exact .inl ⟨s,rfl⟩
  next s routes done =>
    have config := forRoutes_config
      (fun _ _ _ _ _ here => CertificateProvider.checkCertificate_config here) done
    exact .inr ⟨s,routes,config,rfl⟩

variable {toLower provider} in
/-- The map stays in step with the routes, whatever calls are made. -/
theorem call_installed (proxy : Proxy S K) (c : ProxyCall A K) (installed : proxy.table.Installed toLower) :
    (proxy.call toLower provider c).1.table.Installed toLower := by
  cases c with
  | setRoutes answers newRoutes fallback =>
    rw [call]
    rcases setRoutes_cases toLower provider answers newRoutes fallback proxy with
      ⟨s,done⟩ | ⟨s,message,_,done⟩ | ⟨s,loaded,domains,_,_,updated,done⟩
    · rw [done]
      exact installed
    · rw [done]
      exact installed
    · rw [done]
      exact updated
  | checkCertificates answers =>
    rw [call]
    rcases checkCertificates_cases provider answers proxy with ⟨s,done⟩ | ⟨s,routes,config,done⟩
    · rw [done]
      exact installed
    · rw [done]
      exact (RouteMap.update_congr (domains_of_config config)).trans installed

variable {toLower provider} in
theorem run_installed (run : (machine toLower provider).Run ⟨start,.empty⟩ calls final) :
    final.table.Installed toLower :=
  run.invariant (fun proxy => proxy.table.Installed toLower)
    (fun proxy c installed _ => call_installed proxy c installed) rfl

end Proxy

end Centauri
