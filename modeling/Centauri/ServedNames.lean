import Centauri.ManagerRules
import Centauri.StoreSimulation
import Centauri.Suppliers

/-! Which names a client finds on the certificate it is given. A property of certificates
that every issued one has, and that neither staples nor ARI data touch, passes through
the store, the manager and the resolver to every route that is served. -/
namespace Centauri

variable {K σ ι ω : Type}

/-- What a store can be relied on for: a property `P` of all certificates behind its contents
is had by what a lookup finds, which is for the names, and is kept by saves of certificates
that have it, and whatever is written to the heap with it. -/
structure Keeper (store : Store σ ι ω) (P : Details → Prop) where
  Holds : (Ref → Details) → σ → Prop
  found : Holds heap contents →
    store.getCertificate how provider subject altNames heap contents = some entry →
    P (entry.read heap) ∧ (entry.read heap).isFor subject altNames = true
  written : Holds heap contents → P d → Holds (Function.update heap r d) contents
  saved : Holds heap contents → P (heap r) →
    Holds heap (store.saveCertificate now write r heap contents).1

/-- The loop of both lookups returns an entry for the names, if not what it started with. -/
theorem selectCertificate_isFor {deref : ρ → Details} {legacy : Option ρ}
    (found : selectCertificate deref provider subject altNames legacy entries = some r) :
    legacy = some r ∨ (deref r).isFor subject altNames = true := by
  induction entries generalizing legacy with
  | nil => exact .inl found
  | cons q rest ih =>
    unfold selectCertificate at found
    by_cases named : (deref q).isFor subject altNames = true
    · simp only [named,Bool.not_true,Bool.false_eq_true,if_false] at found
      split_ifs at found
      · cases found
        exact .inr named
      · rcases ih found with same | named
        · cases same
          exact .inr ‹_›
        · exact .inr named
      · exact ih found
    · simp only [named,Bool.not_false,if_true] at found
      exact ih found

theorem selectCertificate_names {deref : ρ → Details}
    (found : selectCertificate deref provider subject altNames none entries = some r) :
    r ∈ entries ∧ (deref r).isFor subject altNames = true :=
  ⟨(selectCertificate_own found).1,(selectCertificate_isFor found).resolve_left (by simp)⟩

/-- The file store looks at its entries on the heap. -/
def JsonStore.keeper (json : Json) (P : Details → Prop) : Keeper (JsonStore.asStore json) P where
  Holds heap j := ∀ r ∈ j.certificates, P (heap r)
  found := by
    intro heap j _ provider subject altNames entry holds found
    simp only [JsonStore.asStore,Option.map_eq_some_iff] at found
    obtain ⟨r,found,rfl⟩ := found
    obtain ⟨member,named⟩ := selectCertificate_names found
    exact ⟨holds r member,named⟩
  written := by
    intro heap j d r holds good q member
    by_cases same : q = r
    · rw [same,Function.update_self]
      exact good
    · rw [Function.update_of_ne same]
      exact holds q member
  saved := by
    intro heap j r now write holds good q member
    simp only [JsonStore.asStore,JsonStore.saveCertificate_certificates] at member
    rcases Expiring.mem_of_mem_save member with rfl | member
    · exact good
    · exact holds q member

/-- The shared store holds texts of its own. -/
def RedisStore.keeper (json : Json) (P : Details → Prop) : Keeper (RedisStore.asStore json) P where
  Holds _ hash := ∀ d, RedisStore.Holds json hash d → P d
  found := by
    intro heap hash read provider subject altNames entry holds found
    simp only [RedisStore.asStore,Option.map_eq_some_iff] at found
    obtain ⟨d,found,rfl⟩ := found
    cases read with
    | error message => cases found
    | ok listing =>
      obtain ⟨member,named⟩ := selectCertificate_names found
      exact ⟨holds d ((RedisStore.mem_allCertificates (listing.perm _)).mp member),named⟩
  written := fun holds _ => holds
  saved := by
    intro heap hash r now faults holds good d stored
    obtain ⟨read,exec⟩ := faults
    simp only [RedisStore.asStore,RedisStore.saveCertificate] at stored
    split at stored
    · exact holds d stored
    · split at stored
      · exact holds d stored
      · next raw encoded =>
        have transacted {args : List Entry}
            (stored : RedisStore.Holds json (RedisStore.transaction args (heap r) raw hash) d) : P d := by
          obtain ⟨entry,member,decoded⟩ := stored
          rcases Issuance.mem_transaction member with ⟨_,same⟩ | ⟨_,old⟩
          · rw [same,json.round_trip encoded] at decoded
            cases decoded
            exact good
          · exact holds d ⟨entry,old,decoded⟩
        cases exec with
        | ok => exact transacted stored
        | failed message => exact holds d stored
        | applied message => exact transacted stored

/-- Provider, ARI data and staple have no bearing on the property. -/
structure Details.Textual (P : Details → Prop) : Prop where
  withProvider : P d → P (d.withProvider name)
  withRenewalInfo : P d → P (d.withRenewalInfo info)
  withStaple : P d → P (d.withStaple staple)

def Provides (crypto : Crypto K) (P : Details → Prop) (subject : String) (altNames : List String)
    (key : TlsCertificate K) : Prop :=
  ∃ d : Details, P d ∧ d.isFor subject altNames = true ∧ d.keyPair crypto = .ok key

namespace Keeper

variable {store : Store σ ι ω} {P : Details → Prop} {crypto : Crypto K} {m : Manager}
  {answers : Answers ι ω} {subject : String} {altNames : List String} {w : World σ} {r : Ref}

def Kept (keeper : Keeper store P) (w : World σ) : Prop := keeper.Holds w.heap w.store

def Names (P : Details → Prop) (subject : String) (altNames : List String) (w : World σ) (r : Ref) : Prop :=
  P (w.heap r) ∧ (w.heap r).isFor subject altNames = true

def Issues (P : Details → Prop) (subject : String) (altNames : List String) (answers : Answers ι ω) : Prop :=
  ∀ d, answers.issued = .ok d → P d ∧ d.isFor subject altNames = true

variable (keeper : Keeper store P)

theorem lookup_names (kept : keeper.Kept w)
    (looked : Manager.lookup store how name subject altNames w = (w',some r)) :
    keeper.Kept w' ∧ Names P subject altNames w' r := by
  unfold Manager.lookup World.take at looked
  split at looked
  · cases looked
  · next cert found =>
    cases looked
    exact ⟨kept,keeper.found kept found⟩
  · next d found =>
    cases looked
    have good := keeper.found kept found
    refine ⟨keeper.written kept good.1,?_⟩
    simpa [Names,World.alloc,Found.read] using good

/-- The object is rewritten in place. -/
theorem modify_names (kept : keeper.Kept w) (names : Names P subject altNames w r) (f : Details → Details)
    (good : P (f (w.heap r))) (same : (f (w.heap r)).isFor subject altNames = (w.heap r).isFor subject altNames) :
    keeper.Kept (w.modify r f) ∧ Names P subject altNames (w.modify r f) r := by
  refine ⟨keeper.written kept good,?_⟩
  simp only [Names,World.modify,Function.update_self]
  exact ⟨good,same.trans names.2⟩

/-- It is rewritten and saved. -/
theorem save_names (kept : keeper.Kept w) (names : Names P subject altNames w r) (f : Details → Details)
    (good : P (f (w.heap r))) (same : (f (w.heap r)).isFor subject altNames = (w.heap r).isFor subject altNames) :
    keeper.Kept (Manager.save store now how r (w.modify r f)).1 ∧
      Names P subject altNames (Manager.save store now how r (w.modify r f)).1 r := by
  obtain ⟨kept,names⟩ := keeper.modify_names kept names f good same
  exact ⟨keeper.saved kept names.1,names⟩

/-- A new certificate is labelled and annotated. -/
theorem issuing_names (kept : keeper.Kept w) (good : P d) (labels : P (d.withProvider name))
    (annotates : ∀ {d info}, P d → P (d.withRenewalInfo info)) (named : d.isFor subject altNames = true) :
    keeper.Kept (Manager.issuing store answers name d w) ∧
      Names P subject altNames (Manager.issuing store answers name d w) w.fresh := by
  have allocated : keeper.Kept (w.alloc d) ∧ Names P subject altNames (w.alloc d) w.fresh := by
    refine ⟨keeper.written kept good,?_⟩
    simpa [Names,World.alloc] using And.intro good named
  have here : (w.alloc d).heap w.fresh = d := Function.update_self ..
  have labelled := keeper.modify_names allocated.1 allocated.2 (Details.withProvider name) (here.symm ▸ labels) rfl
  unfold Manager.issuing Manager.updateRenewalInfo
  split
  · exact labelled
  · exact keeper.modify_names labelled.1 labelled.2 (Details.withRenewalInfo _) (annotates labelled.2.1) rfl

/-- A call hands on what it finds or orders. -/
theorem rule (textual : Details.Textual P) (supplier : Supplier) (name : String)
    (issues : Issues P subject altNames answers) :
    Manager.Rule crypto m store answers supplier name subject altNames keeper.Kept keeper.Kept
      (Names P subject altNames) (Names P subject altNames) where
  called kept _ := kept
  hand_called names _ := names
  fit_called names _ := names
  found := keeper.lookup_names
  refreshed kept names _ := keeper.save_names kept names _ (textual.withRenewalInfo names.1) rfl
  settled _ names _ _ := names
  absent kept _ := kept
  due kept _ _ := kept
  refused kept _ := kept
  issued := by
    intro w d kept issued
    obtain ⟨good,named⟩ := issues d issued
    obtain ⟨kept,names⟩ := keeper.issuing_names kept good (textual.withProvider good) textual.withRenewalInfo named
    exact ⟨keeper.saved kept names.1,names⟩
  stapled kept names _ _ := keeper.save_names kept names _ (textual.withStaple names.1) rfl

variable (crypto m) in
theorem getCertificate_names (textual : Details.Textual P) (preferredSupplier : String)
    (issues : Issues P subject altNames answers) (kept : keeper.Kept w) :
    Manager.Follows crypto keeper.Kept (Names P subject altNames)
      (m.getCertificate crypto store answers preferredSupplier subject altNames w) := by
  cases resolved : m.supplier preferredSupplier with
  | error message =>
    rw [Manager.getCertificate,resolved]
    exact ⟨kept,fun _ returned => by cases returned⟩
  | ok found =>
    obtain ⟨supplier,name⟩ := found
    exact (keeper.rule textual supplier name issues).getCertificate resolved kept

theorem existing_names (kept : keeper.Kept w)
    (done : m.getExistingCertificate crypto store now how preferredSupplier subject altNames w = (w',out)) :
    keeper.Kept w' ∧ ∀ key renewal, out = .found key renewal →
      ∃ d : Details, P d ∧ d.isFor subject altNames = true ∧ d.keyPair crypto = .ok key ∧ Usable crypto now d := by
  unfold Manager.getExistingCertificate at done
  split at done
  · cases done
    exact ⟨kept,nofun⟩
  · split at done
    · next looked =>
      cases done
      rw [(Manager.lookup_none looked).1]
      exact ⟨kept,nofun⟩
    · next w₁ cert looked =>
      cases done
      obtain ⟨kept,names⟩ := keeper.lookup_names kept looked
      refine ⟨kept,fun key renewal found => ?_⟩
      obtain ⟨usable,parsed⟩ := (judge_usable_iff crypto now _ _ key).mp ⟨renewal,found⟩
      exact ⟨_,names.1,names.2,parsed,usable⟩

end Keeper

def Route.Provided (crypto : Crypto K) (P : Details → Prop) (config : ProviderConfig) (route : Route K) : Prop :=
  ∀ key, route.certificate = some key →
    Provides crypto P (config.resolvedNames route).1 (config.resolvedNames route).2 key

section Routes

variable {store : Store σ ι ω} {P : Details → Prop} {crypto : Crypto K} {config : ProviderConfig}
  {a : Answers ι ω × ι} {route route' : Route K} {w w' : World σ} (keeper : Keeper store P)

theorem Keeper.load_provided (kept : keeper.Kept w)
    (done : CertificateProvider.loadCertificate (some (newProvider crypto store config)) a route w =
      (w',some route')) : keeper.Kept w' ∧ route'.Provided crypto P config := by
  unfold CertificateProvider.loadCertificate at done
  dsimp only [newProvider,WildcardResolver.asProvider,Manager.asProvider] at done
  split at done
  · next looked =>
    cases done
    obtain ⟨kept,provides⟩ := keeper.existing_names kept looked
    refine ⟨kept,fun key same => ?_⟩
    cases same
    obtain ⟨d,good,named,parsed,_⟩ := provides _ _ rfl
    exact ⟨d,good,named,parsed⟩
  · next looked =>
    cases done
    exact ⟨(keeper.existing_names kept looked).1,nofun⟩
  · cases done

theorem Keeper.update_provided (textual : Details.Textual P)
    (issues : Keeper.Issues P (config.resolvedNames route).1 (config.resolvedNames route).2 a.1) (kept : keeper.Kept w)
    (done : (newProvider crypto store config).updateCert a route w = (w',some route')) :
    keeper.Kept w' ∧ route'.Provided crypto P config := by
  have follows := keeper.getCertificate_names crypto config.manager textual route.provider issues kept
  unfold CertificateProvider.updateCert at done
  dsimp only [newProvider,WildcardResolver.asProvider,Manager.asProvider] at done
  dsimp only [ProviderConfig.resolvedNames] at follows
  split at done
  · next returned =>
    rw [returned] at follows
    cases done
    refine ⟨follows.inv,fun key same => ?_⟩
    cases same
    obtain ⟨r,names,parsed⟩ := follows.returned _ rfl
    exact ⟨_,names.1,names.2,parsed⟩
  · next returned =>
    rw [returned] at follows
    exact keeper.load_provided follows.inv done
  · cases done

end Routes

theorem Details.Honest.textual (x509 : X509 K) : Details.Textual (Details.Honest x509) where
  withProvider := id
  withRenewalInfo := id
  withStaple := id

namespace Proxy

def Supplied (x509 : X509 K) (config : ProviderConfig) (proxy : Proxy (World σ) K) :
    ProxyCall (Answers ι ω × ι) K → Prop
  | .setRoutes _ _ _ => True
  | .checkCertificates answers => ∀ i route, proxy.table.routes[i]? = some route →
      ∃ session : Session, session.Trusted x509 ∧ (answers i).1.issued =
        session.getCertificate (answers i).1.now (config.resolvedNames route).1
          (config.resolvedNames route).2 config.useStaples

/-- A client that asks for a listed domain gets a certificate for the names of its route, and
for that domain where the route does not name others. -/
def Presents (x509 : X509 K) (toLower : String → String) (provider : CertificateProvider S A K)
    (proxy : Proxy S K) : Prop :=
  ∀ host route cert, proxy.table.view.get toLower host = some route →
    proxy.table.view.certificateForClient toLower (some provider) host = .ok (some cert) →
    (∀ wanted ∈ route.certificateNames.1 :: route.certificateNames.2, ¬['.'] <+: wanted.toList →
      ∃ name ∈ (x509.leaf cert.pair).dnsNames, WildcardResolver.Matches name wanted) ∧
    (route.subject = [] → ∃ domain ∈ route.domains, toLower domain = toLower host ∧
      ∃ name ∈ (x509.leaf cert.pair).dnsNames, WildcardResolver.Matches name domain)

variable {x509 : X509 K} {config : ProviderConfig} {store : Store σ ι ω} {toLower : String → String}
  {proxy : Proxy (World σ) K}

structure Covering (keeper : Keeper store (Details.Honest x509)) (config : ProviderConfig)
    (proxy : Proxy (World σ) K) : Prop where
  kept : keeper.Kept proxy.state
  provided : ∀ route ∈ proxy.table.routes, route.Provided x509.toCrypto (Details.Honest x509) config

theorem call_covering {keeper : Keeper store (Details.Honest x509)} (covering : Covering keeper config proxy)
    (c : ProxyCall (Answers ι ω × ι) K) (supplied : Supplied x509 config proxy c)
    (lives : (proxy.call toLower (some (newProvider x509.toCrypto store config)) c).2 ≠ .crashed) :
    Covering keeper config (proxy.call toLower (some (newProvider x509.toCrypto store config)) c).1 := by
  cases c with
  | setRoutes answers newRoutes fallback =>
    simp only [call,setRoutes] at lives ⊢
    split at lives
    · exact absurd rfl lives
    · next s loaded done =>
      obtain ⟨kept,provided,_⟩ := forRoutes_rule keeper.Kept
        (fun _ route => route.Provided x509.toCrypto (Details.Honest x509) config)
        (fun i route s s' route' _ kept done =>
          have here := keeper.load_provided kept done
          ⟨here.1,here.2,fun _ good => good⟩) covering.kept done
      split
      · exact ⟨kept,covering.provided⟩
      · exact ⟨kept,provided⟩
  | checkCertificates answers =>
    simp only [call,checkCertificates] at lives ⊢
    split at lives
    · exact absurd rfl lives
    · next s routes done =>
      have issues (i : Nat) (route : Route K) (at_i : proxy.table.routes[i]? = some route) :
          Keeper.Issues (Details.Honest x509) (config.resolvedNames route).1 (config.resolvedNames route).2
            (answers i).1 := by
        intro d issued
        obtain ⟨session,trusted,answered⟩ := supplied i route at_i
        exact Session.issued_honest trusted (answered.symm.trans issued)
      obtain ⟨kept,provided,_⟩ := forRoutes_rule keeper.Kept
        (fun _ route => route.Provided x509.toCrypto (Details.Honest x509) config)
        (fun i route s s' route' at_i kept done =>
          have here := keeper.update_provided (Details.Honest.textual x509) (issues i route at_i) kept done
          ⟨here.1,here.2,fun _ good => good⟩) covering.kept done
      exact ⟨kept,provided⟩

/-- Resolved names are on the certificate, and good for the names they stand for. -/
theorem Covering.presents {keeper : Keeper store (Details.Honest x509)} (covering : Covering keeper config proxy)
    (installed : proxy.table.Installed toLower) :
    Presents x509 toLower (newProvider x509.toCrypto store config) proxy := by
  intro host route cert listed given
  have found : proxy.table.view.routeFor toLower host = some route := by
    rw [Routes.routeFor,listed]
  have holds : route.certificate = some cert := by
    simpa [Routes.certificateForClient,found] using given
  obtain ⟨d,honest,named,parsed⟩ := covering.provided route (RouteTable.routeFor_mem found) cert holds
  rw [Details.isFor_iff] at named
  have onCertificate : ∀ name ∈ d.subject :: d.altNames, name ∈ (x509.leaf cert.pair).dnsNames := by
    unfold Details.keyPair at parsed
    split at parsed
    · cases parsed
    · next pair accepted =>
      cases parsed
      exact honest pair accepted
  have covers : ∀ wanted ∈ route.certificateNames.1 :: route.certificateNames.2,
      (WildcardResolver.new config.wildcardDomains).applyWildcard wanted ∈
        (x509.leaf cert.pair).dnsNames := by
    intro wanted member
    apply onCertificate
    rcases List.mem_cons.mp member with rfl | member
    · rw [named.1]
      exact List.mem_cons_self
    · refine List.mem_cons_of_mem _ (named.2.mem_iff.mpr ?_)
      exact List.mem_map_of_mem member
  have good : ∀ wanted ∈ route.certificateNames.1 :: route.certificateNames.2, ¬['.'] <+: wanted.toList →
      ∃ name ∈ (x509.leaf cert.pair).dnsNames, WildcardResolver.Matches name wanted :=
    fun wanted member labelled =>
      ⟨_,covers wanted member,WildcardResolver.applyWildcard_matches config.wildcardDomains labelled⟩
  refine ⟨good,fun unnamed => ?_⟩
  obtain ⟨i,owned,at_i⟩ := Option.bind_eq_some_iff.mp listed
  obtain ⟨⟨owner,at_owner,domain,member,same⟩,_⟩ := (RouteMap.update_eq_some_iff installed).mp owned
  obtain rfl := Option.some.inj (at_owner.symm.trans at_i)
  refine ⟨domain,member,same,good domain ?_ ?_⟩
  · rw [Route.certificateNames,unnamed]
    simpa using member
  · exact WildcardResolver.isDomainName_labelled (installed.valid owner (List.mem_of_getElem? at_i) domain member)

theorem run_presents (keeper : Keeper store (Details.Honest x509)) (kept : keeper.Kept w)
    (run : ((machine toLower (some (newProvider x509.toCrypto store config))).restrict
      (Supplied x509 config)).Run ⟨w,.empty⟩ calls final) :
    Presents x509 toLower (newProvider x509.toCrypto store config) final := by
  have covering : Covering keeper config final := by
    refine run.invariant (Covering keeper config) (fun proxy c covering enabled => ?_) ⟨kept,nofun⟩
    exact call_covering covering c enabled.2 enabled.1
  exact covering.presents (run_installed run.unrestrict)

/-- Over either store, if what is stored at the start is honest and suppliers are trusted,
every client gets a certificate with a name for the domain it asks for, whichever provider
and wildcard domains are configured and whatever fails on the way. -/
theorem clients_see_their_domain (x509 : X509 K) (json : Json) (config : ProviderConfig)
    (toLower : String → String) :
    (∀ (w : World (JsonStore Ref)) (calls : List (ProxyCall (Answers Unit WriteFile × Unit) K))
      (final : Proxy (World (JsonStore Ref)) K),
      (∀ r ∈ w.store.certificates, (w.heap r).Honest x509) →
      ((machine toLower (some (newProvider x509.toCrypto (JsonStore.asStore json) config))).restrict
        (Supplied x509 config)).Run ⟨w,.empty⟩ calls final →
      Presents x509 toLower (newProvider x509.toCrypto (JsonStore.asStore json) config) final) ∧
    ∀ (w : World RedisHash)
      (calls : List (ProxyCall (Answers (Except String Listing) (Except String Listing × Exec) ×
        Except String Listing) K)) (final : Proxy (World RedisHash) K),
      (∀ d, RedisStore.Holds json w.store d → d.Honest x509) →
      ((machine toLower (some (newProvider x509.toCrypto (RedisStore.asStore json) config))).restrict
        (Supplied x509 config)).Run ⟨w,.empty⟩ calls final →
      Presents x509 toLower (newProvider x509.toCrypto (RedisStore.asStore json) config) final :=
  ⟨fun _ _ _ honest run => run_presents (JsonStore.keeper json _) honest run,
    fun _ _ _ honest run => run_presents (RedisStore.keeper json _) honest run⟩

end Proxy

namespace Sample

def wildcardX509 : X509 String where
  x509KeyPair certificate privateKey :=
    if certificate = "signed" ∧ privateKey = "key" then .ok certificate
    else .error "tls: failed to find any PEM data in certificate input"
  extensions certificate := if certificate = "signed" then some (.ok []) else none
  pair_decodes := by
    intro certificate privateKey pair accepted
    split at accepted
    next same => simp [same.1]
    next => cases accepted
  parsePEMCertificate certificate :=
    if certificate = "signed" then .ok ⟨["*.example.com"],0⟩
    else .error "Pem decode did not yield a valid block. Is the certificate in the right format?"
  leaf _ := ⟨["*.example.com"],0⟩
  leaf_parsed := by
    intro certificate privateKey pair parsed _ reads
    split at reads
    · cases reads
      rfl
    · cases reads

def wildcardSigner : Signer where
  generateKey := .ok "key"
  createCertificate template _ :=
    if template.dnsNames = ["*.example.com"] then .ok "signed" else .error "x509: unsupported"

def wildcardConfig : ProviderConfig where
  lego := none
  preferredSuppliers := ["selfsigned"]
  wildcardDomains := ["example.com"]
  useStaples := false

def selfSigned : Details :=
  { bare "" "*.example.com" [] (3600 * 24 * 30 * second) with
    privateKey := "key",certificate := "signed",nextOcspUpdate := 3600 * 24 * 30 * second }

def selfSignedAnswers : Answers Unit WriteFile where
  now := 0
  lookup := ()
  renewalInfo := .ok ⟨0,0,""⟩
  saveRenewalInfo := .ok
  issued := .ok selfSigned
  issuedRenewalInfo := .ok ⟨0,0,""⟩
  saveIssued := .ok
  staple := .error "unused"
  saveStaple := .ok

def selfSignedJson : Json :=
  .ofTable [] [([selfSigned.withProvider "selfsigned"],"[stored]")] noneAlone (by decide)

def subdomainRoute : Route String :=
  { plainRoute .notChecked with domains := ["www.example.com"],named := List.cons_ne_nil _ _ }

def apexRoute : Route String :=
  { plainRoute .notChecked with subject := ["*.example.com"] }

def wildcardCalls : List (ProxyCall (Answers Unit WriteFile × Unit) String) :=
  [.setRoutes (fun _ => (selfSignedAnswers,())) [subdomainRoute,apexRoute] none,
    .checkCertificates fun _ => (selfSignedAnswers,())]

def emptyWorld : World (JsonStore Ref) := ⟨fun _ => bare "" "" [] 0,0,.empty,[]⟩

def wildcardProvider : CertificateProvider (World (JsonStore Ref)) (Answers Unit WriteFile × Unit) String :=
  newProvider wildcardX509.toCrypto (JsonStore.asStore selfSignedJson) wildcardConfig

def wildcardServed : Proxy (World (JsonStore Ref)) String :=
  (Proxy.machine asciiLower (some wildcardProvider)).after ⟨emptyWorld,.empty⟩ wildcardCalls

theorem wildcardSigner_trusted : (Session.selfSigned wildcardSigner 0).Trusted wildcardX509 := by
  intro template key certificate signed
  simp only [wildcardSigner] at signed
  split at signed
  · next names =>
    cases signed
    exact ⟨⟨["*.example.com"],0⟩,by simp [wildcardX509],names.symm⟩
  · cases signed

/-- A subdomain is served with the wildcard certificate that was issued for it, and so is
the domain whose route asks for that certificate. -/
theorem wildcard_presented : Proxy.Presents wildcardX509 asciiLower wildcardProvider wildcardServed ∧
    ∀ host ∈ ["WWW.example.com","example.com"],
      wildcardServed.table.view.certificateForClient asciiLower (some wildcardProvider) host =
        .ok (some ⟨"signed",[]⟩) := by
  refine ⟨?_,by decide +kernel⟩
  refine (Proxy.clients_see_their_domain wildcardX509 selfSignedJson wildcardConfig asciiLower).1
    emptyWorld wildcardCalls wildcardServed nofun ?_
  refine .cons ⟨by decide +kernel,trivial⟩ (.cons ⟨by decide +kernel,?_⟩ .nil)
  intro i route member
  refine ⟨.selfSigned wildcardSigner 0,wildcardSigner_trusted,?_⟩
  rcases i with _ | _ | i
  · cases member
    decide +kernel
  · cases member
    decide +kernel
  · cases member

end Sample

end Centauri
