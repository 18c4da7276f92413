import Centauri.IssuanceStore
import Centauri.ProviderIsolation
import Centauri.RenewalWindow
import Centauri.RouteContinuity
import Centauri.Wildcards

/-! The suppliers behind the certificate manager and the provider that is assembled from
them. The limiter, the ACME server and the libraries that generate, sign and parse are
outside; what they answer during a call is given. -/
namespace Centauri

structure Leaf where
  dnsNames : List String
  notAfter : Int
  deriving DecidableEq, Repr

/-- The libraries that parse certificates. Both parsers read the first one of a text. -/
structure X509 (K : Type) extends Crypto K where
  parsePEMCertificate : String → Except String Leaf
  leaf : K → Leaf
  leaf_parsed : x509KeyPair certificate privateKey = .ok pair →
    parsePEMCertificate certificate = .ok parsed → leaf pair = parsed

/-- `legocert.ObtainRequest`, without the configured profile and key type. -/
structure ObtainRequest where
  domains : List String
  mustStaple : Bool
  deriving DecidableEq, Repr

structure Resource where
  issuerCertificate : String
  privateKey : String
  certificate : String
  deriving DecidableEq, Repr

/-- `ocsp.Response`; the status is compared with `ocsp.Good` only. -/
structure OcspResponse where
  good : Bool
  nextUpdate : Int
  deriving DecidableEq, Repr

/-- The rest of what a `LegoSupplier` meets: how the wait for its limiter ends, and the
certifier. -/
structure Certifier where
  wait : Option String
  obtain : ObtainRequest → Except String Resource
  getOCSP : String → Except String (List UInt8 × Option OcspResponse)

namespace LegoSupplier

def updateStaple (certifier : Certifier) (cert : Details) : Except String Staple :=
  match certifier.getOCSP cert.certificate with
  | .error message => .error message
  | .ok (_,none) => .error "OCSP response was not good"
  | .ok (bytes,some response) =>
    if !response.good then .error "OCSP response was not good"
    else .ok ⟨bytes,response.nextUpdate⟩

def getCertificate (s : LegoSupplier Leaf) (certifier : Certifier) (subject : String)
    (altNames : List String) (shouldStaple : Bool) : Except String Details :=
  match certifier.wait with
  | some message => .error message
  | none =>
    match certifier.obtain ⟨subject :: altNames,shouldStaple⟩ with
    | .error message => .error message
    | .ok res =>
      match s.parsePEMCertificate res.certificate with
      | .error message => .error ("unable to parse returned certificate: " ++ message)
      | .ok pem =>
        let details : Details :=
          { provider := "",issuer := res.issuerCertificate,privateKey := res.privateKey
            certificate := res.certificate,subject := subject,altNames := altNames
            notAfter := pem.notAfter,ocspResponse := [],nextOcspUpdate := 0
            ariNextUpdate := 0,ariRenewalTime := 0,ariExplanation := "" }
        if shouldStaple then
          match updateStaple certifier details with
          | .error message => .error ("unable to get OCSP staple for certificate: " ++ message)
          | .ok staple => .ok (details.withStaple staple)
        else .ok details

def minValidities : Supplier := ⟨3600 * 24 * 30 * second,3600 * 24 * second⟩

end LegoSupplier

structure Template where
  commonName : String
  notBefore : Int
  notAfter : Int
  dnsNames : List String
  deriving DecidableEq, Repr

structure Signer where
  generateKey : Except String String
  createCertificate : Template → String → Except String String

namespace SelfSignedSupplier

/-- The clock is read for the template and again for the details. -/
def getCertificate (signer : Signer) (now later : Int) (subject : String) (altNames : List String) :
    Except String Details :=
  match signer.generateKey with
  | .error message => .error message
  | .ok key =>
    let template : Template :=
      { commonName := subject,notBefore := now - 3600 * second
        notAfter := now + 3600 * 24 * 30 * second,dnsNames := subject :: altNames }
    match signer.createCertificate template key with
    | .error message => .error message
    | .ok certificate =>
      .ok { provider := "",issuer := "",privateKey := key,certificate := certificate,subject := subject
            altNames := altNames,notAfter := template.notAfter,ocspResponse := []
            nextOcspUpdate := later + 3600 * 24 * 30 * second,ariNextUpdate := 0
            ariRenewalTime := 0,ariExplanation := "" }

def minValidities : Supplier := ⟨3600 * 24 * 7 * second,second⟩

end SelfSignedSupplier

inductive Session where
  | lego (supplier : LegoSupplier Leaf) (certifier : Certifier)
  | selfSigned (signer : Signer) (later : Int)

/-- The method of the `Supplier` interface. Self-signed certificates are not stapled. -/
def Session.getCertificate (now : Int) (subject : String) (altNames : List String) (shouldStaple : Bool) :
    Session → Except String Details
  | .lego supplier certifier => supplier.getCertificate certifier subject altNames shouldStaple
  | .selfSigned signer later => SelfSignedSupplier.getCertificate signer now later subject altNames

/-- The fields that are written. A self-signed certificate is left as it is. -/
def Session.updateStaple (cert : Details) : Session → Except String Staple
  | .lego _ certifier => LegoSupplier.updateStaple certifier cert
  | .selfSigned _ _ => .ok ⟨cert.ocspResponse,cert.nextOcspUpdate⟩

def Session.updateRenewalInfo (draw : Draw) (now : Int) (cert : Details) : Session → Except String RenewalInfo
  | .lego supplier _ =>
    match supplier.updateRenewalInfo draw now cert with
    | .ok info => .ok info
    | .err message => .error message
    | .crashed => .error "panic" -- never reached, see `updateRenewalInfo_not_crashed`
  | .selfSigned _ _ => .ok ⟨cert.ariNextUpdate,cert.ariRenewalTime,cert.ariExplanation⟩

/-- What is trusted: the ACME server certifies every name it was asked for, and a signed
certificate has the names of its template. -/
def Session.Trusted (x509 : X509 K) : Session → Prop
  | .lego supplier certifier => supplier.parsePEMCertificate = x509.parsePEMCertificate ∧
      ∀ request res parsed, certifier.obtain request = .ok res →
        x509.parsePEMCertificate res.certificate = .ok parsed →
        ∀ name ∈ request.domains, name ∈ parsed.dnsNames
  | .selfSigned signer _ => ∀ template key certificate,
      signer.createCertificate template key = .ok certificate →
      ∃ parsed, x509.parsePEMCertificate certificate = .ok parsed ∧ parsed.dnsNames = template.dnsNames

def Details.Honest (x509 : X509 K) (d : Details) : Prop :=
  ∀ pair, x509.x509KeyPair d.certificate d.privateKey = .ok pair →
    ∀ name ∈ d.subject :: d.altNames, name ∈ (x509.leaf pair).dnsNames

/-- How the ACME supplier comes to return a certificate. -/
theorem LegoSupplier.getCertificate_ok {s : LegoSupplier Leaf}
    (issued : s.getCertificate certifier subject altNames shouldStaple = .ok d) :
    ∃ res pem, certifier.obtain ⟨subject :: altNames,shouldStaple⟩ = .ok res ∧
      s.parsePEMCertificate res.certificate = .ok pem ∧ d.certificate = res.certificate ∧
      d.subject = subject ∧ d.altNames = altNames ∧ d.provider = "" ∧ d.notAfter = pem.notAfter := by
  unfold getCertificate at issued
  cases waited : certifier.wait with
  | some message => simp [waited] at issued
  | none =>
    cases obtained : certifier.obtain ⟨subject :: altNames,shouldStaple⟩ with
    | error message => simp [waited,obtained] at issued
    | ok res =>
      cases parsed : s.parsePEMCertificate res.certificate with
      | error message => simp [waited,obtained,parsed] at issued
      | ok pem =>
        simp only [waited,obtained,parsed] at issued
        refine ⟨res,pem,rfl,parsed,?_⟩
        split at issued
        · split at issued
          · cases issued
          · cases issued
            exact ⟨rfl,rfl,rfl,rfl,rfl⟩
        · cases issued
          exact ⟨rfl,rfl,rfl,rfl,rfl⟩

/-- The response is one that the responder gave as good. -/
theorem LegoSupplier.updateStaple_ok (stapled : updateStaple certifier cert = .ok staple) :
    ∃ response, certifier.getOCSP cert.certificate = .ok (staple.ocspResponse,some response) ∧
      response.good = true ∧ staple.nextOcspUpdate = response.nextUpdate := by
  unfold updateStaple at stapled
  split at stapled
  · cases stapled
  · cases stapled
  · next bytes response answered =>
    split at stapled
    · cases stapled
    · next good =>
      cases stapled
      exact ⟨response,answered,by simpa using good,rfl⟩

/-- A certificate that is ordered to be stapled comes with a response for it. -/
theorem LegoSupplier.getCertificate_stapled {s : LegoSupplier Leaf}
    (issued : s.getCertificate certifier subject altNames true = .ok d) :
    ∃ response, certifier.getOCSP d.certificate = .ok (d.ocspResponse,some response) ∧
      response.good = true ∧ d.nextOcspUpdate = response.nextUpdate := by
  unfold getCertificate at issued
  split at issued
  · cases issued
  · split at issued
    · cases issued
    · split at issued
      · cases issued
      · dsimp only at issued
        rw [if_pos rfl] at issued
        split at issued
        · cases issued
        · next stapled =>
          cases issued
          exact updateStaple_ok stapled

theorem LegoSupplier.getCertificate_unstapled {s : LegoSupplier Leaf}
    (issued : s.getCertificate certifier subject altNames false = .ok d) : d.ocspResponse = [] := by
  unfold getCertificate at issued
  split at issued
  · cases issued
  · split at issued
    · cases issued
    · split at issued
      · cases issued
      · cases issued
        rfl

theorem SelfSignedSupplier.getCertificate_ok
    (issued : getCertificate signer now later subject altNames = .ok d) :
    ∃ key template, signer.createCertificate template key = .ok d.certificate ∧
      template.dnsNames = subject :: altNames ∧ d.subject = subject ∧ d.altNames = altNames ∧
      d.provider = "" ∧ d.ocspResponse = [] := by
  unfold getCertificate at issued
  cases generated : signer.generateKey with
  | error message => simp [generated] at issued
  | ok key =>
    simp only [generated] at issued
    split at issued
    · cases issued
    · next certificate signed =>
      cases issued
      exact ⟨key,_,signed,rfl,rfl,rfl,rfl,rfl⟩

/-- What a trusted supplier returns is for the names asked for, on paper and in fact. -/
theorem Session.issued_honest {x509 : X509 K} {session : Session} (trusted : session.Trusted x509)
    (issued : session.getCertificate now subject altNames shouldStaple = .ok d) :
    d.Honest x509 ∧ d.isFor subject altNames = true := by
  rw [Details.isFor_iff]
  cases session with
  | lego supplier certifier =>
    obtain ⟨same,certified⟩ := trusted
    obtain ⟨res,pem,obtained,parsed,text,rfl,rfl,_⟩ := LegoSupplier.getCertificate_ok issued
    rw [same] at parsed
    refine ⟨fun pair accepted name member => ?_,rfl,.refl _⟩
    rw [text] at accepted
    rw [x509.leaf_parsed accepted parsed]
    exact certified _ res pem obtained parsed name member
  | selfSigned signer later =>
    obtain ⟨key,template,signed,names,rfl,rfl,_⟩ := SelfSignedSupplier.getCertificate_ok issued
    obtain ⟨parsed,reads,same⟩ := trusted template key d.certificate signed
    refine ⟨fun pair accepted name member => ?_,rfl,.refl _⟩
    rw [x509.leaf_parsed accepted reads,same,names]
    exact member

/-- What `NewProvider` is given beside the store. `lego` is how the ACME supplier could be
created, if one is configured. -/
structure ProviderConfig where
  lego : Option (Except String Unit)
  preferredSuppliers : List String
  wildcardDomains : List String
  useStaples : Bool

namespace ProviderConfig

def suppliers (config : ProviderConfig) (name : String) : Option Supplier :=
  if name = "lego" then
    match config.lego with
    | some (.ok ()) => some LegoSupplier.minValidities
    | _ => none
  else if name = "selfsigned" then some SelfSignedSupplier.minValidities
  else none

def manager (config : ProviderConfig) : Manager :=
  ⟨config.useStaples,config.suppliers,config.preferredSuppliers⟩

def resolvedNames (config : ProviderConfig) (route : Route K) : String × List String :=
  let resolver := WildcardResolver.new config.wildcardDomains
  (resolver.applyWildcard route.certificateNames.1,resolver.applyWildcards route.certificateNames.2)

end ProviderConfig

def newProvider (crypto : Crypto K) (store : Store σ ι ω) (config : ProviderConfig) :
    CertificateProvider (World σ) (Answers ι ω × ι) K :=
  (WildcardResolver.new config.wildcardDomains).asProvider (config.manager.asProvider crypto store)

/-- What one `GetCertificate` meets beyond the assembled provider: the time, what the suppliers
depend on, and how each access to the store goes. `existing` is the lookup of
`GetExistingCertificate`. -/
structure Visit (ι ω : Type) where
  now : Int
  lego : LegoSupplier Leaf
  certifier : Certifier
  signer : Signer
  later : Int
  draw : Draw
  drawIssued : Draw
  lookup : ι
  saveRenewalInfo : ω
  saveIssued : ω
  saveStaple : ω
  existing : ι

namespace Visit

variable {σ ι ω : Type}

def session (v : Visit ι ω) (name : String) : Session :=
  if name = "lego" then .lego v.lego v.certifier else .selfSigned v.signer v.later

/-- What the supplier answers to the calls that the manager makes. An answer about a certificate
that is not found is never looked at. -/
def answers (v : Visit ι ω) (store : Store σ ι ω) (config : ProviderConfig) (name subject : String)
    (altNames : List String) (w : World σ) : Answers ι ω :=
  let session := v.session name
  let found := (store.getCertificate v.lookup name subject altNames w.heap w.store).map (Found.read w.heap)
  let issued := session.getCertificate v.now subject altNames config.useStaples
  { now := v.now
    lookup := v.lookup
    renewalInfo := found.elim (.error "") (session.updateRenewalInfo v.draw v.now ·)
    saveRenewalInfo := v.saveRenewalInfo
    issued := issued
    issuedRenewalInfo := issued.bind fun d => session.updateRenewalInfo v.drawIssued v.now (d.withProvider name)
    saveIssued := v.saveIssued
    staple := found.elim (.error "") (session.updateStaple ·)
    saveStaple := v.saveStaple }

end Visit

def suppliedProvider (crypto : Crypto K) (store : Store σ ι ω) (config : ProviderConfig) :
    CertificateProvider (World σ) (Visit ι ω) K :=
  (WildcardResolver.new config.wildcardDomains).asProvider
    { getCertificate := fun v preferredSupplier subject altNames w =>
        match config.manager.supplier preferredSupplier with
        | .error message => (w,.err message)
        | .ok (_,name) =>
          config.manager.getCertificate crypto store (v.answers store config name subject altNames w)
            preferredSupplier subject altNames w
      getExistingCertificate := fun v preferredSupplier subject altNames w =>
        config.manager.getExistingCertificate crypto store v.now v.existing preferredSupplier subject altNames w }

end Centauri
