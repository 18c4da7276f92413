import Centauri.RouteTable

/-! Routes at the grain of their atomic cells. `SetRoutes` stores the domains, the routes and the
fallback one after the other, `CheckCertificates` a certificate and its status, and a lookup reads
them one at a time. Any number of checks and lookups run beside the one goroutine that calls
`SetRoutes`. -/
namespace Centauri.Swaps

variable {C L K : Type}

/-- Where `SetRoutes` is. Its routes are those made since `base`; the certificates of those before
`upTo` are loaded. -/
inductive Setting where
  | idle
  | loading (base upTo : Nat) (fallback : Option Nat)
  | mapped (base : Nat) (fallback : Option Nat)
  | listed (base : Nat) (fallback : Option Nat)
  deriving DecidableEq

/-- Where a call of `CheckCertificates` is: at which route, and which are left. -/
inductive Checking (K : Type) where
  | idle
  | obtaining (route : Nat) (rest : List Nat)
  | loading (route : Nat) (rest : List Nat)
  | storing (route : Nat) (cert : Option (TlsCertificate K)) (status : CertificateStatus) (rest : List Nat)
  | marking (route : Nat) (status : CertificateStatus) (rest : List Nat)

inductive Query where
  | route
  | certificate
  deriving DecidableEq

inductive Answer (K : Type) where
  | route (found : Option Nat)
  | certificate (cert : Option (TlsCertificate K))
  deriving DecidableEq

/-- Where a lookup is. At its end stand what `routeFor` returned and the answer. -/
inductive Looking (K : Type) where
  | idle
  | asked (query : Query) (host : String)
  | missed (query : Query) (host : String)
  | found (query : Query) (host : String) (route : Nat)
  | answered (query : Query) (host : String) (route : Option Nat) (answer : Answer K)
  | refused
  deriving DecidableEq

structure Table where
  domains : String → Option Nat
  fallback : Option Nat

/-- A pointer is a position among all routes made so far. `installed` is a history: the tables
whose domains were stored. -/
structure State (C L K : Type) where
  objects : List (Route K)
  domains : String → Option Nat
  routes : List Nat
  fallback : Option Nat
  setter : Setting
  checkers : C → Checking K
  lookups : L → Looking K
  installed : List Table

/-- What the provider answers comes with the event. -/
inductive Event (C L K : Type) where
  | setRoutes (newRoutes : List (Route K)) (fallback : Option Nat)
  | load (existing : Existing K)
  | storeDomains
  | storeRoutes
  | storeFallback
  | check (c : C)
  | got (c : C) (outcome : Outcome (TlsCertificate K))
  | gotExisting (c : C) (existing : Existing K)
  | storeCertificate (c : C)
  | storeStatus (c : C)
  | ask (l : L) (query : Query) (host : String)
  | readDomains (l : L)
  | readFallback (l : L)
  | readRoute (l : L)

def stores : Existing K → Option (Option (TlsCertificate K) × CertificateStatus)
  | .found cert needsRenewal => some (some cert,if needsRenewal then .expiringSoon else .good)
  | .missing _ _ => some (none,.missing)
  | .crashed => none

def Checking.turn (provided : Bool) : List Nat → Checking K
  | [] => .idle
  | route :: rest => if provided then .obtaining route rest else .marking route .notRequired rest

def Query.answer (query : Query) (pointer : Nat) (route : Route K) : Answer K :=
  match query with
  | .route => .route (if route.certificateStatus.value ≤ CertificateStatus.missing.value then none else some pointer)
  | .certificate => .certificate route.certificate

def Query.nothing : Query → Answer K
  | .route => .route none
  | .certificate => .certificate none

namespace State

def setCertificate (s : State C L K) (pointer : Nat) (cert : Option (TlsCertificate K)) : State C L K :=
  { s with objects := s.objects.modify pointer fun route => route.setCertificate cert route.certificateStatus }

def setCertificateStatus (s : State C L K) (pointer : Nat) (status : CertificateStatus) : State C L K :=
  { s with objects := s.objects.modify pointer fun route => route.setCertificate route.certificate status }

variable [DecidableEq C] [DecidableEq L]

def setChecker (s : State C L K) (c : C) (checking : Checking K) : State C L K :=
  { s with checkers := Function.update s.checkers c checking }

def setLookup (s : State C L K) (l : L) (looking : Looking K) : State C L K :=
  { s with lookups := Function.update s.lookups l looking }

omit [DecidableEq L] in
@[simp] theorem setChecker_self (s : State C L K) (c : C) (checking : Checking K) :
    (s.setChecker c checking).checkers c = checking := Function.update_self ..

omit [DecidableEq C] in
@[simp] theorem setLookup_self (s : State C L K) (l : L) (looking : Looking K) :
    (s.setLookup l looking).lookups l = looking := Function.update_self ..

omit [DecidableEq L] in
theorem setChecker_other (s : State C L K) (checking : Checking K) (other : d ≠ c) :
    (s.setChecker c checking).checkers d = s.checkers d := Function.update_of_ne other ..

omit [DecidableEq C] in
theorem setLookup_other (s : State C L K) (looking : Looking K) (other : m ≠ l) :
    (s.setLookup l looking).lookups m = s.lookups m := Function.update_of_ne other ..

end State

section Machine

variable [DecidableEq C] [DecidableEq L] (toLower : String → String) (provided : Bool)

def enabled (s : State C L K) : Event C L K → Bool
  | .setRoutes newRoutes fallback => decide (s.setter = .idle ∧ ∀ i ∈ fallback, i < newRoutes.length)
  | .load existing =>
    match s.setter with
    | .loading _ upTo _ => decide (upTo < s.objects.length) && (!provided || (stores existing).isSome)
    | _ => false
  | .storeDomains =>
    match s.setter with
    | .loading _ upTo _ => decide (upTo = s.objects.length)
    | _ => false
  | .storeRoutes =>
    match s.setter with
    | .mapped _ _ => true
    | _ => false
  | .storeFallback =>
    match s.setter with
    | .listed _ _ => true
    | _ => false
  | .check c =>
    match s.checkers c with
    | .idle => true
    | _ => false
  | .got c outcome =>
    match s.checkers c, outcome with
    | .obtaining _ _, .ok _ => true
    | .obtaining _ _, .err _ => true
    | _, _ => false
  | .gotExisting c existing =>
    match s.checkers c with
    | .loading _ _ => (stores existing).isSome
    | _ => false
  | .storeCertificate c =>
    match s.checkers c with
    | .storing _ _ _ _ => true
    | _ => false
  | .storeStatus c =>
    match s.checkers c with
    | .marking _ _ _ => true
    | _ => false
  | .ask l _ _ =>
    match s.lookups l with
    | .idle => true
    | .answered _ _ _ _ => true
    | .refused => true
    | _ => false
  | .readDomains l =>
    match s.lookups l with
    | .asked _ _ => true
    | _ => false
  | .readFallback l =>
    match s.lookups l with
    | .missed _ _ => true
    | _ => false
  | .readRoute l =>
    match s.lookups l with
    | .found _ _ _ => true
    | _ => false

/-- The two stores of `loadCertificate` in `SetRoutes` are one step: nobody else has the route yet. -/
def loaded (existing : Existing K) (route : Route K) : Route K :=
  if provided then
    match stores existing with
    | some (cert,status) => route.setCertificate cert status
    | none => route
  else route.setCertificate route.certificate .notRequired

def next (s : State C L K) : Event C L K → State C L K
  | .setRoutes newRoutes fallback =>
    { s with objects := s.objects ++ newRoutes,setter := .loading s.objects.length s.objects.length fallback }
  | .load existing =>
    match s.setter with
    | .loading base upTo fallback =>
      { s with objects := s.objects.modify upTo (loaded provided existing),setter := .loading base (upTo + 1) fallback }
    | _ => s
  | .storeDomains =>
    match s.setter with
    | .loading base _ fallback =>
      match RouteMap.update toLower (s.objects.drop base) with
      | .error _ => { s with setter := .idle }
      | .ok domains =>
        let shared := fun key => (domains key).map (base + ·)
        { s with
          domains := shared
          setter := .mapped base fallback
          installed := s.installed ++ [⟨shared,fallback.map (base + ·)⟩] }
    | _ => s
  | .storeRoutes =>
    match s.setter with
    | .mapped base fallback =>
      { s with routes := List.range' base (s.objects.length - base),setter := .listed base fallback }
    | _ => s
  | .storeFallback =>
    match s.setter with
    | .listed base fallback => { s with fallback := fallback.map (base + ·),setter := .idle }
    | _ => s
  | .check c => s.setChecker c (.turn provided s.routes)
  | .got c outcome =>
    match s.checkers c, outcome with
    | .obtaining route rest, .ok cert => s.setChecker c (.storing route (some cert) .good rest)
    | .obtaining route rest, .err _ => s.setChecker c (.loading route rest)
    | _, _ => s
  | .gotExisting c existing =>
    match s.checkers c, stores existing with
    | .loading route rest, some (cert,status) => s.setChecker c (.storing route cert status rest)
    | _, _ => s
  | .storeCertificate c =>
    match s.checkers c with
    | .storing route cert status rest => (s.setCertificate route cert).setChecker c (.marking route status rest)
    | _ => s
  | .storeStatus c =>
    match s.checkers c with
    | .marking route status rest => (s.setCertificateStatus route status).setChecker c (.turn provided rest)
    | _ => s
  | .ask l query host =>
    s.setLookup l (if query = .certificate ∧ provided = false then .refused else .asked query host)
  | .readDomains l =>
    match s.lookups l with
    | .asked query host =>
      match s.domains (toLower host) with
      | some route => s.setLookup l (.found query host route)
      | none => s.setLookup l (.missed query host)
    | _ => s
  | .readFallback l =>
    match s.lookups l with
    | .missed query host =>
      match s.fallback with
      | some route => s.setLookup l (.found query host route)
      | none => s.setLookup l (.answered query host none query.nothing)
    | _ => s
  | .readRoute l =>
    match s.lookups l with
    | .found query host pointer =>
      match s.objects[pointer]? with
      | some route => s.setLookup l (.answered query host (some pointer) (query.answer pointer route))
      | none => s
    | _ => s

def machine : Machine (State C L K) (Event C L K) := ⟨fun s event => enabled provided s event = true,next toLower provided⟩

instance (s : State C L K) (event : Event C L K) : Decidable ((machine toLower provided).Enabled s event) :=
  inferInstanceAs (Decidable (_ = true))

end Machine

def initial : State C L K where
  objects := []
  domains _ := none
  routes := []
  fallback := none
  setter := .idle
  checkers _ := .idle
  lookups _ := .idle
  installed := [⟨fun _ => none,none⟩]

section Steps

variable [DecidableEq C] [DecidableEq L] (toLower : String → String) (provided : Bool)

inductive Step (s : State C L K) : Event C L K → State C L K → Prop where
  | setRoutes : s.setter = .idle → (∀ i ∈ fallback, i < newRoutes.length) →
      Step s (.setRoutes newRoutes fallback)
        { s with objects := s.objects ++ newRoutes,setter := .loading s.objects.length s.objects.length fallback }
  | load : s.setter = .loading base upTo fallback → upTo < s.objects.length →
      (provided = true → (stores existing).isSome) →
      Step s (.load existing)
        { s with objects := s.objects.modify upTo (loaded provided existing),setter := .loading base (upTo + 1) fallback }
  | invalid : s.setter = .loading base s.objects.length fallback →
      RouteMap.update toLower (s.objects.drop base) = .error message →
      Step s .storeDomains { s with setter := .idle }
  | storeDomains : s.setter = .loading base s.objects.length fallback →
      RouteMap.update toLower (s.objects.drop base) = .ok domains →
      Step s .storeDomains
        { s with
          domains := fun key => (domains key).map (base + ·)
          setter := .mapped base fallback
          installed := s.installed ++ [⟨fun key => (domains key).map (base + ·),fallback.map (base + ·)⟩] }
  | storeRoutes : s.setter = .mapped base fallback →
      Step s .storeRoutes
        { s with routes := List.range' base (s.objects.length - base),setter := .listed base fallback }
  | storeFallback : s.setter = .listed base fallback →
      Step s .storeFallback { s with fallback := fallback.map (base + ·),setter := .idle }
  | check : s.checkers c = .idle → Step s (.check c) (s.setChecker c (.turn provided s.routes))
  | got : s.checkers c = .obtaining route rest →
      Step s (.got c (.ok cert)) (s.setChecker c (.storing route (some cert) .good rest))
  | failed : s.checkers c = .obtaining route rest →
      Step s (.got c (.err message)) (s.setChecker c (.loading route rest))
  | gotExisting : s.checkers c = .loading route rest → stores existing = some (cert,status) →
      Step s (.gotExisting c existing) (s.setChecker c (.storing route cert status rest))
  | storeCertificate : s.checkers c = .storing route cert status rest →
      Step s (.storeCertificate c) ((s.setCertificate route cert).setChecker c (.marking route status rest))
  | storeStatus : s.checkers c = .marking route status rest →
      Step s (.storeStatus c) ((s.setCertificateStatus route status).setChecker c (.turn provided rest))
  | refuse : query = .certificate → provided = false → Step s (.ask l query host) (s.setLookup l .refused)
  | ask : ¬(query = .certificate ∧ provided = false) →
      Step s (.ask l query host) (s.setLookup l (.asked query host))
  | hit : s.lookups l = .asked query host → s.domains (toLower host) = some route →
      Step s (.readDomains l) (s.setLookup l (.found query host route))
  | miss : s.lookups l = .asked query host → s.domains (toLower host) = none →
      Step s (.readDomains l) (s.setLookup l (.missed query host))
  | fallBack : s.lookups l = .missed query host → s.fallback = some route →
      Step s (.readFallback l) (s.setLookup l (.found query host route))
  | nothing : s.lookups l = .missed query host → s.fallback = none →
      Step s (.readFallback l) (s.setLookup l (.answered query host none query.nothing))
  | answer : s.lookups l = .found query host pointer → s.objects[pointer]? = some route →
      Step s (.readRoute l) (s.setLookup l (.answered query host (some pointer) (query.answer pointer route)))
  | dangling : s.lookups l = .found query host pointer → s.objects[pointer]? = none → Step s (.readRoute l) s

variable {toLower provided} {s t : State C L K}

theorem step_ask (s : State C L K) (l : L) (query : Query) (host : String) :
    Step toLower provided s (.ask l query host) (next toLower provided s (.ask l query host)) := by
  simp only [Swaps.next]
  split
  next unsupported => exact .refuse unsupported.1 unsupported.2
  next supported => exact .ask supported

theorem step_of_enabled (taken : enabled provided s event = true) :
    Step toLower provided s event (next toLower provided s event) := by
  cases event with
  | setRoutes newRoutes fallback =>
    obtain ⟨idle,inRange⟩ := of_decide_eq_true taken
    exact .setRoutes idle inRange
  | load existing =>
    simp only [enabled] at taken
    split at taken
    next base upTo fallback loading =>
      simp only [Swaps.next,loading]
      obtain ⟨inside,answered⟩ := Bool.and_eq_true_iff.mp taken
      exact .load loading (of_decide_eq_true inside) (by cases provided <;> simp_all)
    next => cases taken
  | storeDomains =>
    simp only [enabled] at taken
    split at taken
    next base upTo fallback loading =>
      obtain rfl := of_decide_eq_true taken
      simp only [Swaps.next,loading]
      split
      next refused => exact .invalid loading refused
      next updated => exact .storeDomains loading updated
    next => cases taken
  | storeRoutes =>
    simp only [enabled] at taken
    split at taken
    next mapped =>
      simp only [Swaps.next,mapped]
      exact .storeRoutes mapped
    next => cases taken
  | storeFallback =>
    simp only [enabled] at taken
    split at taken
    next listed =>
      simp only [Swaps.next,listed]
      exact .storeFallback listed
    next => cases taken
  | check c =>
    simp only [enabled] at taken
    split at taken
    next idle => exact .check idle
    next => cases taken
  | got c outcome =>
    simp only [enabled] at taken
    split at taken
    next obtaining =>
      simp only [Swaps.next,obtaining]
      exact .got obtaining
    next obtaining =>
      simp only [Swaps.next,obtaining]
      exact .failed obtaining
    next => cases taken
  | gotExisting c existing =>
    simp only [enabled] at taken
    split at taken
    next loading =>
      obtain ⟨⟨cert,status⟩,answered⟩ := Option.isSome_iff_exists.mp taken
      simp only [Swaps.next,loading,answered]
      exact .gotExisting loading answered
    next => cases taken
  | storeCertificate c =>
    simp only [enabled] at taken
    split at taken
    next storing =>
      simp only [Swaps.next,storing]
      exact .storeCertificate storing
    next => cases taken
  | storeStatus c =>
    simp only [enabled] at taken
    split at taken
    next marking =>
      simp only [Swaps.next,marking]
      exact .storeStatus marking
    next => cases taken
  | ask l query host => exact step_ask s l query host
  | readDomains l =>
    simp only [enabled] at taken
    split at taken
    next asked =>
      simp only [Swaps.next,asked]
      split
      next listed => exact .hit asked listed
      next unlisted => exact .miss asked unlisted
    next => cases taken
  | readFallback l =>
    simp only [enabled] at taken
    split at taken
    next missed =>
      simp only [Swaps.next,missed]
      split
      next set => exact .fallBack missed set
      next unset => exact .nothing missed unset
    next => cases taken
  | readRoute l =>
    simp only [enabled] at taken
    split at taken
    next found =>
      simp only [Swaps.next,found]
      split
      next there => exact .answer found there
      next gone => exact .dangling found gone
    next => cases taken

variable (toLower s) in
inductive Looks : Looking K → Looking K → Prop where
  | stay : Looks looking looking
  | hit : s.domains (toLower host) = some route → Looks (.asked query host) (.found query host route)
  | miss : s.domains (toLower host) = none → Looks (.asked query host) (.missed query host)
  | fallBack : s.fallback = some route → Looks (.missed query host) (.found query host route)
  | nothing : s.fallback = none → Looks (.missed query host) (.answered query host none query.nothing)
  | answer : s.objects[pointer]? = some route →
      Looks (.found query host pointer) (.answered query host (some pointer) (query.answer pointer route))

theorem lookup_step (step : Step toLower provided s event t) (l : L)
    (notAsked : ∀ query host, event ≠ .ask l query host) : Looks toLower s (s.lookups l) (t.lookups l) := by
  have moved {m : L} {looking : Looking K} (own : Looks toLower s (s.lookups m) looking) :
      Looks toLower s (s.lookups l) ((s.setLookup m looking).lookups l) := by
    by_cases same : l = m
    · subst same
      rw [State.setLookup_self]
      exact own
    · rw [State.setLookup_other _ _ same]
      exact .stay
  have asked {m : L} {query : Query} {host : String} {looking : Looking K}
      (elsewhere : ∀ q h, (Event.ask m query host : Event C L K) ≠ .ask l q h) :
      Looks toLower s (s.lookups l) ((s.setLookup m looking).lookups l) := by
    have other : l ≠ m := fun same => elsewhere query host (by rw [same])
    rw [State.setLookup_other _ _ other]
    exact .stay
  cases step with
  | refuse => exact asked notAsked
  | ask => exact asked notAsked
  | hit at_l listed => exact moved (at_l ▸ .hit listed)
  | miss at_l unlisted => exact moved (at_l ▸ .miss unlisted)
  | fallBack at_l set => exact moved (at_l ▸ .fallBack set)
  | nothing at_l unset => exact moved (at_l ▸ .nothing unset)
  | answer at_l there => exact moved (at_l ▸ .answer there)
  | _ => exact .stay

variable (provided s) in
inductive Checks (c : C) : Event C L K → Checking K → Prop where
  | stay : Checks c event (s.checkers c)
  | check : Checks c (.check c) (.turn provided s.routes)
  | got : s.checkers c = .obtaining pointer rest → Checks c (.got c (.ok cert)) (.storing pointer (some cert) .good rest)
  | failed : s.checkers c = .obtaining pointer rest → Checks c (.got c (.err message)) (.loading pointer rest)
  | gotExisting : s.checkers c = .loading pointer rest → stores existing = some (cert,status) →
      Checks c (.gotExisting c existing) (.storing pointer cert status rest)
  | storeCertificate : s.checkers c = .storing pointer cert status rest →
      Checks c (.storeCertificate c) (.marking pointer status rest)
  | storeStatus : s.checkers c = .marking pointer status rest → Checks c (.storeStatus c) (.turn provided rest)

theorem checker_step (step : Step toLower provided s event t) (c : C) : Checks provided s c event (t.checkers c) := by
  have moved {u : State C L K} {d : C} {checking : Checking K} {event : Event C L K} (same : u.checkers = s.checkers)
      (own : c = d → Checks provided s c event checking) : Checks provided s c event ((u.setChecker d checking).checkers c) := by
    by_cases here : c = d
    · subst here
      rw [State.setChecker_self]
      exact own rfl
    · rw [State.setChecker_other _ _ here,same]
      exact .stay
  cases step with
  | check => exact moved rfl (by rintro rfl; exact .check)
  | got obtaining => exact moved rfl (by rintro rfl; exact .got obtaining)
  | failed obtaining => exact moved rfl (by rintro rfl; exact .failed obtaining)
  | gotExisting loading answered => exact moved rfl (by rintro rfl; exact .gotExisting loading answered)
  | storeCertificate storing => exact moved rfl (by rintro rfl; exact .storeCertificate storing)
  | storeStatus marking => exact moved rfl (by rintro rfl; exact .storeStatus marking)
  | _ => exact .stay

theorem installed_step (step : Step toLower provided s event t) : s.installed <+: t.installed := by
  cases step with
  | storeDomains => exact List.prefix_append _ _
  | _ => exact List.prefix_refl _

end Steps

section Tables

variable [DecidableEq C] [DecidableEq L] {toLower : String → String} {provided : Bool} {s t : State C L K}

def Table.routeFor (toLower : String → String) (table : Table) (host : String) : Option Nat :=
  match table.domains (toLower host) with
  | some route => some route
  | none => table.fallback

def State.pending (s : State C L K) : Option (Option Nat) :=
  match s.setter with
  | .mapped base fallback => some (fallback.map (base + ·))
  | .listed base fallback => some (fallback.map (base + ·))
  | .idle => none
  | .loading _ _ _ => none

/-- The place of the oldest table in force: the last one, or until its fallback is stored the one
before. -/
def State.oldest (s : State C L K) : Nat :=
  if s.pending = none then s.installed.length - 1 else s.installed.length - 2

/-- The domains are those of the table installed last, the fallback is that of the oldest one in
force. -/
structure Current (s : State C L K) : Prop where
  domains : ∃ table, s.installed[s.installed.length - 1]? = some table ∧ table.domains = s.domains
  fallback : ∃ table, s.installed[s.oldest]? = some table ∧ table.fallback = s.fallback
  pending : ∀ fallback, s.pending = some fallback →
    ∃ table, s.installed[s.installed.length - 1]? = some table ∧ table.fallback = fallback

omit [DecidableEq C] [DecidableEq L] in
theorem initial_current : Current (initial : State C L K) := by
  refine ⟨⟨_,rfl,rfl⟩,⟨_,rfl,rfl⟩,fun fallback pending => ?_⟩
  cases pending

theorem Current.step (current : Current s) (step : Step toLower provided s event t) : Current t := by
  -- Most steps leave the tables, the cells and what is pending as they are.
  have kept (installed : t.installed = s.installed) (domains : t.domains = s.domains) (fallback : t.fallback = s.fallback)
      (pending : t.pending = s.pending) : Current t := by
    have oldest : t.oldest = s.oldest := by rw [State.oldest,State.oldest,pending,installed]
    refine ⟨?_,?_,?_⟩
    · rw [installed,domains]
      exact current.domains
    · rw [installed,oldest,fallback]
      exact current.fallback
    · rw [installed,pending]
      exact current.pending
  cases step with
  | setRoutes idle => exact kept rfl rfl rfl (by simp [State.pending,idle])
  | load loading => exact kept rfl rfl rfl (by simp [State.pending,loading])
  | invalid loading => exact kept rfl rfl rfl (by simp [State.pending,loading])
  | storeDomains loading =>
    obtain ⟨table,there,same⟩ := current.fallback
    have inside := (List.getElem?_eq_some_iff.mp there).1
    have oldest : s.oldest = (s.installed.length + 1) - 2 := by simp [State.oldest,State.pending,loading]
    have last (new : Table) : (s.installed ++ [new])[(s.installed ++ [new]).length - 1]? = some new := by simp
    refine ⟨⟨_,last _,rfl⟩,⟨table,?_,same⟩,?_⟩
    · simp only [State.oldest,State.pending,reduceCtorEq,if_false,List.length_append,List.length_singleton]
      rw [← oldest,List.getElem?_append_left inside]
      exact there
    · rintro _ ⟨⟩
      exact ⟨_,last _,rfl⟩
  | storeRoutes mapped => exact kept rfl rfl rfl (by simp [State.pending,mapped])
  | storeFallback listed =>
    refine ⟨current.domains,?_,fun _ pending => by cases pending⟩
    exact current.pending _ (by simp only [State.pending,listed])
  | _ => exact kept rfl rfl rfl rfl

theorem oldest_step (step : Step toLower provided s event t) : s.oldest ≤ t.oldest := by
  cases step with
  | setRoutes idle => simp [State.oldest,State.pending,idle]
  | load loading => simp [State.oldest,State.pending,loading]
  | invalid loading => simp [State.oldest,State.pending,loading]
  | storeDomains loading => simp [State.oldest,State.pending,loading]
  | storeRoutes mapped => simp [State.oldest,State.pending,mapped]
  | storeFallback listed =>
    simp only [State.oldest,State.pending,listed,reduceCtorEq,if_false,if_true]
    omega
  | _ => exact Nat.le_refl _

omit [DecidableEq C] [DecidableEq L] in
theorem oldest_le_last (s : State C L K) : s.oldest ≤ s.installed.length - 1 := by
  unfold State.oldest
  split <;> omega

def State.Recent (s : State C L K) (n : Nat) (table : Table) : Prop :=
  ∃ i, n ≤ i ∧ s.installed[i]? = some table

omit [DecidableEq C] [DecidableEq L] in
theorem State.Recent.grow (grown : s.installed <+: t.installed) (recent : s.Recent n table) : t.Recent n table := by
  obtain ⟨i,bound,there⟩ := recent
  obtain ⟨more,eq⟩ := grown
  refine ⟨i,bound,?_⟩
  rw [← eq,List.getElem?_append_left (List.getElem?_eq_some_iff.mp there).1]
  exact there

omit [DecidableEq C] [DecidableEq L] in
theorem State.Recent.mem (recent : s.Recent n table) : table ∈ s.installed.drop n := by
  obtain ⟨i,late,there⟩ := recent
  refine List.mem_iff_getElem?.mpr ⟨i - n,?_⟩
  rw [List.getElem?_drop,Nat.add_sub_cancel' late]
  exact there

variable (toLower) in
/-- Where a pointer comes from: a recent table lists the host under it, or one does not list the
host and it is the fallback of one. -/
def State.Source (s : State C L K) (n : Nat) (host : String) (route : Option Nat) : Prop :=
  (∃ table, s.Recent n table ∧ table.domains (toLower host) = route ∧ route ≠ none) ∨
    (∃ table, s.Recent n table ∧ table.domains (toLower host) = none) ∧
      ∃ table, s.Recent n table ∧ table.fallback = route

variable (toLower) in
def State.Seen (s : State C L K) (n : Nat) (query : Query) (host : String) : Looking K → Prop
  | .asked q h => q = query ∧ h = host
  | .missed q h => (q = query ∧ h = host) ∧ ∃ table, s.Recent n table ∧ table.domains (toLower host) = none
  | .found q h route => (q = query ∧ h = host) ∧ s.Source toLower n host (some route)
  | .answered q h route answer => (q = query ∧ h = host) ∧ s.Source toLower n host route ∧
    (query = .route → answer = .route route ∨ answer = .route none)
  | .refused => True
  | .idle => False

omit [DecidableEq C] [DecidableEq L] in
theorem State.Source.grow (grown : s.installed <+: t.installed) (source : s.Source toLower n host route) :
    t.Source toLower n host route := by
  rcases source with ⟨table,recent,listed⟩ | ⟨⟨table,recent,unlisted⟩,other,recent',fallback⟩
  · exact .inl ⟨table,recent.grow grown,listed⟩
  · exact .inr ⟨⟨table,recent.grow grown,unlisted⟩,other,recent'.grow grown,fallback⟩

omit [DecidableEq C] [DecidableEq L] in
theorem State.Seen.grow (grown : s.installed <+: t.installed) {looking : Looking K}
    (seen : s.Seen toLower n query host looking) : t.Seen toLower n query host looking := by
  cases looking with
  | missed q h =>
    obtain ⟨same,table,recent,unlisted⟩ := seen
    exact ⟨same,table,recent.grow grown,unlisted⟩
  | found q h route => exact ⟨seen.1,seen.2.grow grown⟩
  | answered q h route answer => exact ⟨seen.1,seen.2.1.grow grown,seen.2.2⟩
  | asked q h => exact seen
  | refused => exact seen
  | idle => exact seen

omit [DecidableEq C] [DecidableEq L] in
theorem State.Seen.looks (current : Current s) (bound : n ≤ s.oldest) (looks : Looks toLower s x y)
    (seen : s.Seen toLower n query host x) : s.Seen toLower n query host y := by
  obtain ⟨mapped,at_last,domains⟩ := current.domains
  obtain ⟨fallen,at_oldest,fallback⟩ := current.fallback
  have recent : s.Recent n mapped := ⟨_,Nat.le_trans bound (oldest_le_last s),at_last⟩
  have recent' : s.Recent n fallen := ⟨_,bound,at_oldest⟩
  cases looks with
  | stay => exact seen
  | hit listed =>
    obtain ⟨rfl,rfl⟩ := seen
    exact ⟨⟨rfl,rfl⟩,.inl ⟨mapped,recent,domains ▸ listed,Option.some_ne_none _⟩⟩
  | miss unlisted =>
    obtain ⟨rfl,rfl⟩ := seen
    exact ⟨⟨rfl,rfl⟩,mapped,recent,domains ▸ unlisted⟩
  | fallBack set => exact ⟨seen.1,.inr ⟨seen.2,fallen,recent',fallback.trans set⟩⟩
  | nothing unset =>
    refine ⟨seen.1,.inr ⟨seen.2,fallen,recent',fallback.trans unset⟩,?_⟩
    rintro rfl
    rw [seen.1.1]
    exact .inl rfl
  | answer there =>
    refine ⟨seen.1,seen.2,?_⟩
    rintro rfl
    rw [seen.1.1,Query.answer]
    split
    · exact .inr rfl
    · exact .inl rfl

theorem run_seen (run : (machine toLower provided).Run s trace t) (current : Current s) (bound : n ≤ s.oldest)
    (single : ∀ query host, .ask l query host ∉ trace) (seen : s.Seen toLower n query host (s.lookups l)) :
    t.Seen toLower n query host (t.lookups l) := by
  have kept := run.invariant_on
    (fun u => Current u ∧ n ≤ u.oldest ∧ u.Seen toLower n query host (u.lookups l)) ?_ ⟨current,bound,seen⟩
  · exact kept.2.2
  rintro u event member ⟨current,bound,seen⟩ enabled
  have step : Step toLower provided u event _ := step_of_enabled enabled
  have looks := lookup_step step l fun query host same => single query host (same ▸ member)
  exact ⟨current.step step,Nat.le_trans bound (oldest_step step),
    (seen.looks current bound looks).grow (installed_step step)⟩

theorem run_current (run : (machine toLower provided).Run initial trace (t : State C L K)) : Current t :=
  run.invariant Current (fun _ _ current enabled => current.step (step_of_enabled enabled)) initial_current

/-- Reloads and lookups in any interleaving: a lookup finds its route in one of the tables that
were in force during it, unless these differ in whether they list the host, and then the only
other thing it can find is the fallback of one of them. -/
theorem lookup_follows_one_table (toLower : String → String) (provided : Bool) (before after : List (Event C L K))
    (s t : State C L K) (l : L) (query : Query) (host : String) (route : Option Nat) (answer : Answer K)
    (run : (machine toLower provided).Run initial before s)
    (later : (machine toLower provided).Run (next toLower provided s (.ask l query host)) after t)
    (single : ∀ query host, .ask l query host ∉ after)
    (answered : t.lookups l = .answered query host route answer) :
    ((∃ table ∈ t.installed.drop s.oldest, route = table.routeFor toLower host) ∨
      (∃ table ∈ t.installed.drop s.oldest, route = table.fallback) ∧
        (∃ table ∈ t.installed.drop s.oldest, table.domains (toLower host) = none) ∧
        ∃ table ∈ t.installed.drop s.oldest, table.domains (toLower host) ≠ none) ∧
    (query = .route → answer = .route route ∨ answer = .route none) := by
  have current := run_current run
  have asked : (next toLower provided s (.ask l query host)).Seen toLower s.oldest query host
      ((next toLower provided s (.ask l query host)).lookups l) := by
    simp only [next,State.setLookup_self]
    split
    · trivial
    · exact ⟨rfl,rfl⟩
  have ask : Step toLower provided s _ _ := step_ask s l query host
  have seen := run_seen later (current.step ask) (oldest_step ask) single asked
  rw [answered] at seen
  obtain ⟨_,source,own⟩ := seen
  refine ⟨?_,own⟩
  rcases source with ⟨table,recent,listed,found⟩ | ⟨⟨unlisting,recent,unlisted⟩,falling,recent',fallback⟩
  · refine .inl ⟨table,recent.mem,?_⟩
    obtain ⟨r,rfl⟩ := Option.ne_none_iff_exists'.mp found
    simp only [Table.routeFor,listed]
  · -- The fallback belongs to a table that lists the host or to one that does not.
    cases owns : falling.domains (toLower host) with
    | none => exact .inl ⟨falling,recent'.mem,by simp only [Table.routeFor,owns,fallback]⟩
    | some r => exact .inr ⟨⟨falling,recent'.mem,fallback.symm⟩,⟨unlisting,recent.mem,unlisted⟩,
        falling,recent'.mem,by simp [owns]⟩

end Tables

namespace Sample

open Centauri.Sample (asciiLower plainRoute)

def route (domain : String) : Route Unit :=
  { plainRoute .notChecked with domains := [domain],named := List.cons_ne_nil _ _ }

def install : List (Event Unit Unit Unit) :=
  [.setRoutes [route "example.com"] none,.load (.found ⟨(),[]⟩ false),.storeDomains,.storeRoutes,.storeFallback]

def installed : State Unit Unit Unit := (machine asciiLower true).after initial install

theorem install_runs : (machine asciiLower true).Run initial install installed :=
  Machine.run_of_allows (by decide +kernel)

def swap : List (Event Unit Unit Unit) :=
  [.setRoutes [route "EXAMPLE.com"] (some 0),.readDomains (),.load (.missing true ""),.storeDomains,.readRoute ()]

def swapped : State Unit Unit Unit :=
  (machine asciiLower true).after (next asciiLower true installed (.ask () .route "example.COM")) swap

theorem swapped_found : ∃ table ∈ swapped.installed.drop 1, some 0 = table.routeFor asciiLower "example.COM" := by
  have later : (machine asciiLower true).Run (next asciiLower true installed (.ask () .route "example.COM")) swap swapped :=
    Machine.run_of_allows (by decide +kernel)
  obtain ⟨one | ⟨_,⟨table,member,unlisted⟩,_⟩,_⟩ := lookup_follows_one_table asciiLower true install swap installed swapped ()
    .route "example.COM" (some 0) (.route (some 0)) install_runs later (by simp [swap]) (by decide +kernel)
  · exact one
  · have listed : ∀ table ∈ swapped.installed.drop 1, table.domains (asciiLower "example.COM") ≠ none := by decide +kernel
    exact absurd unlisted (listed table member)

/-- A domain and a fallback are added between the two reads of a lookup. -/
def extend : List (Event Unit Unit Unit) :=
  [.readDomains (),.setRoutes [route "example.net",route "example.org"] (some 1),.load (.found ⟨(),[]⟩ false),
    .load (.found ⟨(),[]⟩ false),.storeDomains,.storeRoutes,.storeFallback,.readFallback (),.readRoute ()]

def extended : State Unit Unit Unit :=
  (machine asciiLower true).after (next asciiLower true installed (.ask () .route "example.net")) extend

/-- The lookup gets the new fallback for the new domain, as no table says. -/
theorem mixed_lookup :
    (machine asciiLower true).Run (next asciiLower true installed (.ask () .route "example.net")) extend extended ∧
      extended.lookups () = .answered .route "example.net" (some 2) (.route (some 2)) ∧
      ∀ table ∈ extended.installed, table.routeFor asciiLower "example.net" ≠ some 2 := by
  exact ⟨Machine.run_of_allows (by decide +kernel),by decide +kernel,by decide +kernel⟩

end Sample

end Centauri.Swaps
