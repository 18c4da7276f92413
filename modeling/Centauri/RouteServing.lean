import Centauri.RouteTable

/-! A domain is served exactly while its route has a certificate. Certificate and
status are fields of their own, written by every path of `loadCertificate` and
`updateCert`; the invariant ties them together for every installed route. -/
namespace Centauri

variable {S A K : Type}

/-- The status is above missing exactly when there is a certificate to serve. -/
def Route.Tied (route : Route K) : Prop :=
  route.certificateStatus.served = true ↔ route.certificate ≠ none

namespace CertificateProvider

variable {p : CertificateProvider S A K} {a : A} {route route' : Route K} {s s' : S}

/-- Whatever a route was before, loading leaves it tied. -/
theorem loadCertificate_tied (loaded : loadCertificate (some p) a route s = (s',some route')) :
    route'.Tied := by
  unfold loadCertificate at loaded
  dsimp only at loaded
  split at loaded
  next cert needsRenewal _ =>
    cases loaded
    cases needsRenewal <;> simp [Route.Tied,Route.setCertificate,CertificateStatus.served,
      CertificateStatus.value]
  next =>
    cases loaded
    simp [Route.Tied,Route.setCertificate,CertificateStatus.served,CertificateStatus.value]
  next => cases loaded

theorem updateCert_tied (updated : p.updateCert a route s = (s',some route')) : route'.Tied := by
  unfold updateCert at updated
  dsimp only at updated
  split at updated
  next =>
    cases updated
    simp [Route.Tied,Route.setCertificate,CertificateStatus.served,CertificateStatus.value]
  next => exact loadCertificate_tied updated
  next => cases updated

end CertificateProvider

namespace Proxy

variable {toLower : String → String} {p : CertificateProvider S A K}

def AllTied (proxy : Proxy S K) : Prop := ∀ route ∈ proxy.table.routes, route.Tied

/-- A failed `SetRoutes` leaves what was installed; any other call ties every route it
leaves behind. -/
theorem call_tied (proxy : Proxy S K) (c : ProxyCall A K) (tied : proxy.AllTied) :
    (proxy.call toLower (some p) c).1.AllTied := by
  cases c with
  | setRoutes answers newRoutes fallback =>
    simp only [call,setRoutes]
    split
    · exact tied
    next s loaded done =>
    split
    · exact tied
    · have rule := forRoutes_rule (fun _ => True) (fun _ route => route.Tied)
        (fun _ _ _ _ _ _ _ here =>
          ⟨trivial,CertificateProvider.loadCertificate_tied here,fun _ held => held⟩) trivial done
      exact rule.2.1
  | checkCertificates answers =>
    simp only [call,checkCertificates]
    split
    · exact tied
    next s routes done =>
    have rule := forRoutes_rule (fun _ => True) (fun _ route => route.Tied)
      (fun _ _ _ _ _ _ _ here =>
        ⟨trivial,CertificateProvider.updateCert_tied here,fun _ held => held⟩) trivial done
    exact rule.2.1

theorem run_tied (run : (machine toLower (some p)).Run ⟨start,.empty⟩ calls final) : final.AllTied := by
  refine run.invariant AllTied (fun proxy c tied _ => call_tied proxy c tied) ?_
  intro route member
  cases member

/-- After any sequence of calls a domain is served exactly when a client asking for it
gets a certificate, and it is the certificate of the route that serves it. -/
theorem served_iff_certified (toLower : String → String) (p : CertificateProvider S A K) (start : S)
    (calls : List (ProxyCall A K)) (final : Proxy S K)
    (run : (machine toLower (some p)).Run ⟨start,.empty⟩ calls final) (domain : String) :
    (final.table.view.routeForDomain toLower domain ≠ none ↔
      ∃ cert, final.table.view.certificateForClient toLower (some p) domain = .ok (some cert)) ∧
    ∀ route, final.table.view.routeForDomain toLower domain = some route →
      final.table.view.routeFor toLower domain = some route ∧
      final.table.view.certificateForClient toLower (some p) domain = .ok route.certificate := by
  have tied := run_tied run
  unfold Routes.routeForDomain Routes.certificateForClient
  cases found : final.table.view.routeFor toLower domain with
  | none => simp
  | some route =>
    have here : route.certificateStatus.served = true ↔ route.certificate ≠ none :=
      tied route (RouteTable.routeFor_mem found)
    by_cases low : route.certificateStatus.value ≤ CertificateStatus.missing.value
    · have bare : route.certificate = none := by simpa [CertificateStatus.served,low] using here
      simp [low,bare]
    · have held : route.certificate ≠ none := by simpa [CertificateStatus.served,low] using here
      obtain ⟨cert,some⟩ := Option.ne_none_iff_exists'.mp held
      simp [low,some]

end Proxy

namespace Sample

def onDemand : CertificateProvider Unit Bool String where
  getCertificate obtains _ subject _ s := (s,if obtains then .ok ⟨subject,[]⟩ else .err "no reply")
  getExistingCertificate _ _ _ _ s := (s,.missing true "no stored certificate found")

/-- A route that is its own fallback is installed without a certificate, obtains one,
and survives a reload that is refused. -/
def refusedReload : List (ProxyCall Bool String) :=
  [.setRoutes (fun _ => false) [plainRoute .notChecked] (some 0),.checkCertificates fun _ => true,
    .setRoutes (fun _ => false)
      [{ plainRoute .notChecked with domains := ["exa mple"],named := List.cons_ne_nil _ _ }] none]

def reloaded : Proxy Unit String :=
  (Proxy.machine asciiLower (some onDemand)).after ⟨(),.empty⟩ refusedReload

theorem refused_reload_served :
    reloaded.table.view.routeForDomain asciiLower "Example.com" ≠ none ∧
    reloaded.table.view.certificateForClient asciiLower (some onDemand) "Example.com" =
      .ok (some ⟨"example.com",[]⟩) := by
  have allowed : (Proxy.machine asciiLower (some onDemand)).Allows ⟨(),.empty⟩ refusedReload := by
    decide +kernel
  have certified : reloaded.table.view.certificateForClient asciiLower (some onDemand)
      "Example.com" = .ok (some ⟨"example.com",[]⟩) := by decide +kernel
  refine ⟨?_,certified⟩
  exact (Proxy.served_iff_certified asciiLower onDemand () refusedReload reloaded
    (Machine.run_of_allows allowed) "Example.com").1.mpr ⟨_,certified⟩

end Sample

end Centauri
