import Centauri.CertificateManager

/-! Routes and the manager that finds them by domain and keeps their certificates
current. -/
namespace Centauri

inductive CertificateStatus where
  | notChecked
  | missing
  | expiringSoon
  | good
  | notRequired
  deriving DecidableEq, Repr

def CertificateStatus.value : CertificateStatus → Nat
  | .notChecked => 0
  | .missing => 1
  | .expiringSoon => 2
  | .good => 3
  | .notRequired => 4

def CertificateStatus.served (status : CertificateStatus) : Bool :=
  !decide (status.value ≤ CertificateStatus.missing.value)

structure Upstream where
  host : String
  deriving DecidableEq, Repr

inductive HeaderOp where
  | delete
  | add
  | replace
  | default
  deriving DecidableEq, Repr

structure Header where
  name : String
  value : String
  operation : HeaderOp
  deriving DecidableEq, Repr

/-- An empty path stands for that of the original request. -/
structure ErrorMapping where
  status : Int
  upstream : String
  path : String
  rawQuery : String
  deriving DecidableEq, Repr

/-- `config.Parse`, the only source of routes, splits the domains off a non-empty text. -/
structure Route (K : Type) where
  domains : List String
  named : domains ≠ []
  upstreams : List Upstream
  subject : List String
  headers : List Header := []
  errorMappings : List ErrorMapping := []
  provider : String
  redirectToPrimary : Bool := false
  certificate : Option (TlsCertificate K)
  certificateStatus : CertificateStatus

namespace Route

variable {K : Type}

def primary (route : Route K) : String := route.domains.head route.named

def certificateNames (route : Route K) : String × List String :=
  match route.subject with
  | primary :: alts => (primary,alts)
  | [] => (route.domains.head route.named,route.domains.tail)

def setCertificate (cert : Option (TlsCertificate K)) (status : CertificateStatus) (route : Route K) :
    Route K :=
  { route with certificate := cert,certificateStatus := status }

def config (route : Route K) : Route K := route.setCertificate none .notChecked

/-- Routes that the configuration does not tell apart. -/
theorem of_config {a b : Route K} (same : a.config = b.config) :
    a.domains = b.domains ∧ a.headers = b.headers ∧ a.errorMappings = b.errorMappings := by
  cases a
  cases b
  simp only [config,setCertificate,mk.injEq] at same
  exact ⟨same.1,same.2.2.2.1,same.2.2.2.2.1⟩

def Works (route : Route K) : Prop :=
  route.certificate ≠ none ∧ route.certificateStatus.served = true

end Route

/-- The map of `routeMap`, under lower-cased domains, and the fallback. -/
structure Routes (K : Type) where
  domains : String → Option (Route K)
  fallback : Option (Route K)

namespace Routes

variable {K : Type} (toLower : String → String)

def get (routes : Routes K) (domain : String) : Option (Route K) := routes.domains (toLower domain)

def routeFor (routes : Routes K) (domain : String) : Option (Route K) :=
  match routes.get toLower domain with
  | some route => some route
  | none => routes.fallback

def routeForDomain (routes : Routes K) (domain : String) : Option (Route K) :=
  match routes.routeFor toLower domain with
  | none => none
  | some route => if route.certificateStatus.value ≤ CertificateStatus.missing.value then none else some route

variable {toLower} in
theorem routeForDomain_eq_some {routes : Routes K} : routes.routeForDomain toLower domain = some route ↔
    routes.routeFor toLower domain = some route ∧ route.certificateStatus.served = true := by
  unfold routeForDomain CertificateStatus.served
  cases routes.routeFor toLower domain with
  | none => simp
  | some found =>
    by_cases low : found.certificateStatus.value ≤ CertificateStatus.missing.value
    · simp only [low,if_true,reduceCtorEq,Option.some.injEq,false_iff]
      rintro ⟨rfl,served⟩
      simp [low] at served
    · simp only [low,if_false,Option.some.injEq]
      constructor
      · rintro rfl
        exact ⟨rfl,by simp [low]⟩
      · exact And.left

end Routes

/-- The interface the manager asks for certificates. `S` is the state behind it and `A`
what one call meets outside; a call may also panic. -/
structure CertificateProvider (S A K : Type) where
  getCertificate : A → String → String → List String → S → S × Outcome (TlsCertificate K)
  getExistingCertificate : A → String → String → List String → S → S × Existing K

namespace CertificateProvider

variable {S A K : Type}

/-- `none` as the provider stands for nil, `none` as the route for a panic. -/
def loadCertificate (provider : Option (CertificateProvider S A K)) (a : A) (route : Route K) (s : S) :
    S × Option (Route K) :=
  match provider with
  | none => (s,some (route.setCertificate route.certificate .notRequired))
  | some p =>
    let (primary,alts) := route.certificateNames
    match p.getExistingCertificate a route.provider primary alts s with
    | (s,.found cert needsRenewal) =>
      (s,some (route.setCertificate (some cert) (if needsRenewal then .expiringSoon else .good)))
    | (s,.missing _ _) => (s,some (route.setCertificate none .missing))
    | (s,.crashed) => (s,none)

def updateCert (p : CertificateProvider S A K) (a : A) (route : Route K) (s : S) :
    S × Option (Route K) :=
  let (primary,alts) := route.certificateNames
  match p.getCertificate a route.provider primary alts s with
  | (s,.ok cert) => (s,some (route.setCertificate (some cert) .good))
  | (s,.err _) => loadCertificate (some p) a route s
  | (s,.crashed) => (s,none)

end CertificateProvider

/-- The certificate manager as the proxy manager sees it. A call meets the answers it is
given, and `ι` is how the lookup of `GetExistingCertificate` goes. -/
def Manager.asProvider (crypto : Crypto K) (store : Store σ ι ω) (m : Manager) :
    CertificateProvider (World σ) (Answers ι ω × ι) K where
  getCertificate a preferredSupplier subject altNames w :=
    m.getCertificate crypto store a.1 preferredSupplier subject altNames w
  getExistingCertificate a preferredSupplier subject altNames w :=
    m.getExistingCertificate crypto store a.1.now a.2 preferredSupplier subject altNames w

/-- A route of one domain and one upstream, without a certificate. -/
def Sample.plainRoute (status : CertificateStatus) : Route K :=
  { domains := ["example.com"],named := List.cons_ne_nil _ _,upstreams := [⟨"10.0.0.1:8080"⟩]
    subject := [],provider := "",certificate := none,certificateStatus := status }

/-- `strings.ToLower` on ASCII text. -/
def Sample.asciiLower (s : String) : String := String.ofList (s.toList.map Char.toLower)

end Centauri
