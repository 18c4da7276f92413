import Centauri.ServedNames

/-! Certificates that ask to be stapled, and the OCSP responses they are served with. Here the
suppliers are part of the model, since a response is asked for on behalf of the certificate that
a lookup found. -/
namespace Centauri

variable {K σ ι ω : Type}

def Crypto.mustStaple (crypto : Crypto K) (certificate : String) : Bool :=
  match crypto.extensions certificate with
  | some (.ok identifiers) => identifiers.any (· == "1.3.6.1.5.5.7.1.24")
  | _ => false

theorem Details.requiresStaple_iff {crypto : Crypto K} {d : Details} :
    d.requiresStaple crypto = some true ↔ crypto.mustStaple d.certificate = true := by
  unfold requiresStaple Crypto.mustStaple
  cases crypto.extensions d.certificate with
  | none => simp
  | some parsed => cases parsed <;> simp

/-- `given certificate response until`: a responder gave the response as good for the certificate,
with the time of its next update. -/
abbrev Responses := String → List UInt8 → Int → Prop

/-- The staple of a certificate was given for it, and one that needs a staple has one. -/
structure Details.Vouched (crypto : Crypto K) (given : Responses) (d : Details) : Prop where
  own : d.ocspResponse ≠ [] → given d.certificate d.ocspResponse d.nextOcspUpdate
  must : crypto.mustStaple d.certificate = true →
    given d.certificate d.ocspResponse d.nextOcspUpdate ∧ d.provider ≠ "selfsigned"

/-- The staple is not outdated at the time of the visit, or was given during it. That a new one is
not outdated is not checked. -/
def Visit.Renewed (v : Visit ι ω) (d : Details) : Prop :=
  v.now < d.nextOcspUpdate ∨ ∃ response, v.certifier.getOCSP d.certificate = .ok (d.ocspResponse,some response) ∧
    response.good = true ∧ d.nextOcspUpdate = response.nextUpdate

/-- A staple that is needed is as new as that, unless the certificate of an unknown provider was
found on behalf of the self-signed supplier, which does not update staples. -/
def Details.Current (crypto : Crypto K) (v : Visit ι ω) (name : String) (d : Details) : Prop :=
  crypto.mustStaple d.certificate = true → v.Renewed d ∨ name = "selfsigned" ∧ d.provider = ""

/-- Good responses count as given, and only certificates that were ordered so ask to be stapled. -/
structure Visit.Trusted (crypto : Crypto K) (given : Responses) (v : Visit ι ω) : Prop where
  responder : v.certifier.getOCSP certificate = .ok (bytes,some response) → response.good = true →
    given certificate bytes response.nextUpdate
  ordered : v.certifier.obtain ⟨domains,false⟩ = .ok res → crypto.mustStaple res.certificate = false
  signed : v.signer.createCertificate template key = .ok certificate → crypto.mustStaple certificate = false

def Store.Labelled (store : Store σ ι ω) : Prop :=
  ∀ how provider subject altNames heap contents entry,
    store.getCertificate how provider subject altNames heap contents = some entry →
    (entry.read heap).provider = provider ∨ (entry.read heap).provider = ""

theorem JsonStore.labelled (json : Json) : (JsonStore.asStore json).Labelled := by
  intro how provider subject altNames heap j entry found
  simp only [JsonStore.asStore,Option.map_eq_some_iff] at found
  obtain ⟨r,found,rfl⟩ := found
  exact (selectCertificate_own found).2

theorem RedisStore.labelled (json : Json) : (RedisStore.asStore json).Labelled := by
  intro read provider subject altNames heap hash entry found
  simp only [RedisStore.asStore,Option.map_eq_some_iff] at found
  obtain ⟨d,found,rfl⟩ := found
  cases read with
  | error message => cases found
  | ok listing => exact (selectCertificate_own found).2

/-- The two suppliers that are assembled. -/
theorem ProviderConfig.supplier_named {config : ProviderConfig}
    (resolved : config.manager.supplier preferred = .ok (supplier,name)) :
    (name = "lego" ∨ name = "selfsigned") ∧ 0 ≤ supplier.minStapleValidity := by
  have known : config.suppliers name = some supplier := Manager.supplier_known resolved
  unfold suppliers at known
  split at known
  · next same =>
    split at known
    · cases known
      exact ⟨.inl same,by decide⟩
    · cases known
  · split at known
    · next same =>
      cases known
      exact ⟨.inr same,by decide⟩
    · cases known

section Suppliers

variable {crypto : Crypto K} {given : Responses} {v : Visit ι ω} {d : Details} {name : String}

/-- A certificate that asks to be stapled is issued by the ACME server, with a response. -/
theorem Visit.Trusted.issued (trusted : v.Trusted crypto given)
    (issued : (v.session name).getCertificate v.now subject altNames useStaples = .ok d) :
    d.isFor subject altNames = true ∧ d.provider = "" ∧
      (d.ocspResponse ≠ [] → given d.certificate d.ocspResponse d.nextOcspUpdate) ∧
      (crypto.mustStaple d.certificate = true →
        given d.certificate d.ocspResponse d.nextOcspUpdate ∧ v.Renewed d ∧ name = "lego") := by
  rw [Details.isFor_iff]
  unfold session at issued
  split at issued
  · next same =>
    obtain ⟨res,pem,obtained,_,text,rfl,rfl,unlabelled,_⟩ := LegoSupplier.getCertificate_ok issued
    cases useStaples with
    | false =>
      refine ⟨⟨rfl,.refl _⟩,unlabelled,absurd (LegoSupplier.getCertificate_unstapled issued),fun must => ?_⟩
      rw [text,trusted.ordered obtained] at must
      cases must
    | true =>
      obtain ⟨response,answered,good,update⟩ := LegoSupplier.getCertificate_stapled issued
      have here := trusted.responder answered good
      rw [← update] at here
      exact ⟨⟨rfl,.refl _⟩,unlabelled,fun _ => here,fun _ => ⟨here,.inr ⟨response,answered,good,update⟩,same⟩⟩
  · obtain ⟨key,template,signed,_,rfl,rfl,unlabelled,empty⟩ := SelfSignedSupplier.getCertificate_ok issued
    refine ⟨⟨rfl,.refl _⟩,unlabelled,absurd empty,fun must => ?_⟩
    rw [trusted.signed signed] at must
    cases must

/-- Only the ACME supplier updates a staple. The other one has no use for it, but for
certificates that came to it without a provider. -/
theorem Visit.Trusted.stapled (trusted : v.Trusted crypto given) (named : name = "lego" ∨ name = "selfsigned")
    (vouched : d.Vouched crypto given) (own : d.provider = name ∨ d.provider = "")
    (answered : (v.session name).updateStaple d = .ok staple) :
    (d.withStaple staple).Vouched crypto given ∧ (d.withStaple staple).Current crypto v name := by
  rcases named with rfl | rfl
  · obtain ⟨response,answered,good,update⟩ := LegoSupplier.updateStaple_ok answered
    have here := trusted.responder answered good
    rw [← update] at here
    exact ⟨⟨fun _ => here,fun must => ⟨here,(vouched.must must).2⟩⟩,fun _ => .inl (.inr ⟨response,answered,good,update⟩)⟩
  · cases answered
    refine ⟨⟨vouched.own,vouched.must⟩,fun must => .inr ⟨rfl,?_⟩⟩
    exact own.resolve_left (vouched.must must).2

theorem Details.Vouched.withRenewalInfo (vouched : d.Vouched crypto given) (info : RenewalInfo) :
    (d.withRenewalInfo info).Vouched crypto given := ⟨vouched.own,vouched.must⟩

theorem Session.updateStaple_withRenewalInfo (session : Session) (info : RenewalInfo) (d : Details) :
    session.updateStaple (d.withRenewalInfo info) = session.updateStaple d := by
  cases session <;> rfl

end Suppliers

theorem Manager.lookup_some {store : Store σ ι ω} {w : World σ}
    (looked : lookup store how name subject altNames w = (w',some r)) :
    ∃ entry, store.getCertificate how name subject altNames w.heap w.store = some entry ∧
      w'.heap r = entry.read w.heap := by
  unfold lookup World.take at looked
  split at looked
  · cases looked
  · next cert found =>
    cases looked
    exact ⟨_,found,rfl⟩
  · next d found =>
    cases looked
    exact ⟨_,found,by simp [World.alloc,Found.read]⟩

namespace Keeper

variable {store : Store σ ι ω} {crypto : Crypto K} {given : Responses} {config : ProviderConfig}
  {v : Visit ι ω} {name subject : String} {altNames : List String} {w : World σ}

def Retrieved (crypto : Crypto K) (given : Responses) (v : Visit ι ω) (staple : Except String Staple)
    (name subject : String) (altNames : List String) (w : World σ) (r : Ref) : Prop :=
  Names (Details.Vouched crypto given) subject altNames w r ∧
    ((w.heap r).provider = name ∨ (w.heap r).provider = "") ∧
    ∀ s, staple = .ok s → (v.session name).updateStaple (w.heap r) = .ok s

def Fit (crypto : Crypto K) (given : Responses) (v : Visit ι ω) (name subject : String) (altNames : List String)
    (w : World σ) (r : Ref) : Prop :=
  Names (Details.Vouched crypto given) subject altNames w r ∧ (w.heap r).Current crypto v name

variable (keeper : Keeper store (Details.Vouched crypto given))

/-- What is found has a staple that will do, is given a new one, or is replaced. -/
theorem steps (trusted : v.Trusted crypto given) (named : name = "lego" ∨ name = "selfsigned")
    (nonneg : 0 ≤ supplier.minStapleValidity) :
    Manager.Steps crypto config.manager store (v.answers store config name subject altNames w) supplier name
      subject altNames keeper.Kept keeper.Kept
      (Retrieved crypto given v (v.answers store config name subject altNames w).staple name subject altNames)
      (Fit crypto given v name subject altNames) where
  called kept _ := kept
  hand_called hand _ := hand
  fit_called fit _ := fit
  refreshed := by
    intro w₁ r info kept ⟨names,own,staple⟩ _
    obtain ⟨kept,names'⟩ := keeper.save_names kept names (Details.withRenewalInfo info)
      (names.1.withRenewalInfo info) rfl
    refine ⟨kept,names',?_⟩
    simp only [Manager.heap_save,World.modify,Function.update_self,Session.updateStaple_withRenewalInfo]
    exact ⟨own,staple⟩
  settled := by
    intro w₁ r _ hand _ enough
    refine ⟨hand.1,fun must => .inl (.inl ?_)⟩
    have lasts := enough (Details.requiresStaple_iff.mpr must)
    rw [Details.hasStapleFor_iff] at lasts
    have now : (v.answers store config name subject altNames w).now = v.now := rfl
    omega
  due kept _ _ := kept
  refused kept _ := kept
  issued := by
    intro w₁ d kept issued
    obtain ⟨isFor,unlabelled,own,stapled⟩ := trusted.issued issued
    -- the response was given for the certificate before it was labelled and annotated
    have vouched : d.Vouched crypto given := ⟨own,fun must => ⟨(stapled must).1,by rw [unlabelled]; decide⟩⟩
    have relabelled : (d.withProvider name).Vouched crypto given :=
      ⟨own,fun must => ⟨(stapled must).1,by simp [Details.withProvider,(stapled must).2.2]⟩⟩
    obtain ⟨kept,names⟩ := keeper.issuing_names kept vouched relabelled (Details.Vouched.withRenewalInfo · _) isFor
    obtain ⟨_,_,here,_⟩ := Manager.issue_spec store v.now (v.answers store config name subject altNames w).issuedRenewalInfo
      name d w₁ _ rfl
    refine ⟨keeper.saved kept names.1,names,?_⟩
    refine Eq.subst here.symm ?_
    cases (v.answers store config name subject altNames w).issuedRenewalInfo <;>
      exact fun must => .inl (stapled must).2.1
  stapled := by
    intro w₁ r s kept ⟨names,own,staple⟩ _ answered
    obtain ⟨vouched,current⟩ := trusted.stapled named names.1 own (staple s answered)
    obtain ⟨kept,names⟩ := keeper.save_names kept names (Details.withStaple s) vouched rfl
    refine ⟨kept,names,?_⟩
    simpa only [Manager.heap_save,World.modify,Function.update_self] using current

variable (subject altNames) in
theorem getCertificate_stapled (labelled : store.Labelled) (trusted : v.Trusted crypto given)
    (kept : keeper.Kept w) (resolved : config.manager.supplier preferredSupplier = .ok (supplier,name)) :
    Manager.Follows crypto keeper.Kept (Fit crypto given v name subject altNames)
      (config.manager.getCertificate crypto store (v.answers store config name subject altNames w)
        preferredSupplier subject altNames w) := by
  obtain ⟨named,nonneg⟩ := ProviderConfig.supplier_named resolved
  have steps : Manager.Steps crypto config.manager store (v.answers store config name subject altNames w) supplier
      name subject altNames _ _ _ _ := keeper.steps trusted named nonneg
  have locked : keeper.Kept (w.call (.lockCertificate subject altNames)) := kept
  refine steps.getCertificate resolved (steps.getLocked (fun _ => locked) fun w' r looked => ?_)
  obtain ⟨kept',names⟩ := keeper.lookup_names locked looked
  obtain ⟨entry,found,here⟩ := Manager.lookup_some looked
  refine ⟨kept',names,here ▸ labelled _ _ _ _ _ _ _ found,fun s answered => ?_⟩
  have found : store.getCertificate v.lookup name subject altNames w.heap w.store = some entry := found
  simpa [Visit.answers,found,here] using answered

end Keeper

def Route.Stapled (crypto : Crypto K) (given : Responses) (config : ProviderConfig) (v : Visit ι ω) (route : Route K) :
    Prop :=
  ∀ key, route.certificate = some key → ∃ supplier name, ∃ d : Details,
    config.manager.supplier route.provider = .ok (supplier,name) ∧ d.keyPair crypto = .ok key ∧
    d.Vouched crypto given ∧ d.Current crypto v name

section Routes

variable {store : Store σ ι ω} {crypto : Crypto K} {given : Responses} {config : ProviderConfig}
  {v : Visit ι ω} {route route' : Route K} {w w' : World σ} (keeper : Keeper store (Details.Vouched crypto given))

theorem Keeper.load_stapled (kept : keeper.Kept w)
    (done : CertificateProvider.loadCertificate (some (suppliedProvider crypto store config)) v route w =
      (w',some route')) : keeper.Kept w' ∧ route'.Stapled crypto given config v := by
  unfold CertificateProvider.loadCertificate at done
  dsimp only [suppliedProvider,WildcardResolver.asProvider] at done
  split at done
  · next looked =>
    cases done
    have resolves := looked
    obtain ⟨kept,provides⟩ := keeper.existing_names kept looked
    refine ⟨kept,fun key same => ?_⟩
    cases same
    obtain ⟨d,vouched,_,parsed,usable⟩ := provides _ _ rfl
    obtain ⟨⟨supplier,name⟩,resolved⟩ : ∃ found, config.manager.supplier route.provider = .ok found := by
      cases resolved : config.manager.supplier route.provider with
      | error message => simp [Manager.getExistingCertificate,resolved] at resolves
      | ok found => exact ⟨found,rfl⟩
    refine ⟨supplier,name,d,resolved,parsed,vouched,fun must => .inl (.inl ?_)⟩
    simpa using usable.stapled (Details.requiresStaple_iff.mpr must)
  · next looked =>
    cases done
    refine ⟨(keeper.existing_names kept looked).1,fun key same => ?_⟩
    cases same
  · cases done

theorem Keeper.update_stapled (labelled : store.Labelled) (trusted : v.Trusted crypto given) (kept : keeper.Kept w)
    (done : (suppliedProvider crypto store config).updateCert v route w = (w',some route')) :
    keeper.Kept w' ∧ route'.Stapled crypto given config v := by
  unfold CertificateProvider.updateCert at done
  cases resolved : config.manager.supplier route.provider with
  | error message =>
    dsimp only [suppliedProvider,WildcardResolver.asProvider] at done
    rw [resolved] at done
    exact keeper.load_stapled kept done
  | ok found =>
    obtain ⟨supplier,name⟩ := found
    have follows (subject : String) (altNames : List String) :=
      keeper.getCertificate_stapled subject altNames labelled trusted kept resolved
    dsimp only [suppliedProvider,WildcardResolver.asProvider] at done
    rw [resolved] at done
    dsimp only at done
    split at done
    · next returned =>
      have follows := returned ▸ follows _ _
      cases done
      refine ⟨follows.inv,fun key same => ?_⟩
      cases same
      obtain ⟨r,⟨names,current⟩,parsed⟩ := follows.returned _ rfl
      exact ⟨supplier,name,_,resolved,parsed,names.1,current⟩
    · next returned =>
      have follows := returned ▸ follows _ _
      exact keeper.load_stapled follows.inv done
    · cases done

end Routes

namespace Proxy

variable {store : Store σ ι ω} {crypto : Crypto K} {given : Responses} {config : ProviderConfig}
  {toLower : String → String} {proxy : Proxy (World σ) K}

def Trusted (crypto : Crypto K) (given : Responses) : ProxyCall (Visit ι ω) K → Prop
  | .setRoutes _ _ _ => True
  | .checkCertificates visits => ∀ i, (visits i).Trusted crypto given

/-- A response that a client gets along with a certificate was given for this certificate. If the
certificate asks for one, there is one, and it is as new as one of the visits; but for certificates of an
unknown provider on routes for the self-signed supplier, which may come with an outdated one. -/
def Staples (crypto : Crypto K) (given : Responses) (config : ProviderConfig) (toLower : String → String)
    (provider : CertificateProvider S A K) (visited : Visit ι ω → Prop) (proxy : Proxy S K) : Prop :=
  ∀ host cert, proxy.table.view.certificateForClient toLower (some provider) host = .ok (some cert) →
    ∃ route, proxy.table.view.routeFor toLower host = some route ∧ ∃ supplier name, ∃ d : Details,
      config.manager.supplier route.provider = .ok (supplier,name) ∧ d.keyPair crypto = .ok cert ∧
      (cert.ocspStaple ≠ [] → given d.certificate cert.ocspStaple d.nextOcspUpdate) ∧
      (crypto.mustStaple d.certificate = true → given d.certificate cert.ocspStaple d.nextOcspUpdate ∧
        ((∃ v, visited v ∧ v.Renewed d) ∨ name = "selfsigned" ∧ d.provider = ""))

structure Stapled (keeper : Keeper store (Details.Vouched crypto given)) (config : ProviderConfig)
    (visited : Visit ι ω → Prop) (proxy : Proxy (World σ) K) : Prop where
  kept : keeper.Kept proxy.state
  routes : ∀ route ∈ proxy.table.routes, ∃ v, visited v ∧ route.Stapled crypto given config v

variable {keeper : Keeper store (Details.Vouched crypto given)} {visited : Visit ι ω → Prop}

theorem Stapled.staples (stapled : Stapled keeper config visited proxy) :
    Staples crypto given config toLower (suppliedProvider crypto store config) visited proxy := by
  intro host cert presented
  unfold Routes.certificateForClient at presented
  dsimp only at presented
  split at presented
  · cases presented
  · next route found =>
    obtain ⟨v,was,has⟩ := stapled.routes route (RouteTable.routeFor_mem found)
    obtain ⟨supplier,name,d,resolved,parsed,vouched,current⟩ := has cert (Except.ok.inj presented)
    have same : cert.ocspStaple = d.ocspResponse := by
      unfold Details.keyPair at parsed
      split at parsed
      · cases parsed
      · cases parsed
        rfl
    refine ⟨route,found,supplier,name,d,resolved,parsed,?_⟩
    rw [same]
    exact ⟨vouched.own,fun must => ⟨(vouched.must must).1,(current must).imp_left fun renewed => ⟨v,was,renewed⟩⟩⟩

/-- A check leaves no route as it was. -/
theorem check_stapled (labelled : store.Labelled) (kept : keeper.Kept proxy.state)
    (trusted : ∀ i, (visits i).Trusted crypto given) (among : ∀ i, visited (visits i))
    (lives : (proxy.call toLower (some (suppliedProvider crypto store config)) (.checkCertificates visits)).2 ≠
      .crashed) :
    Stapled keeper config visited
      (proxy.call toLower (some (suppliedProvider crypto store config)) (.checkCertificates visits)).1 := by
  simp only [call,checkCertificates] at lives ⊢
  split at lives
  · exact absurd rfl lives
  · next s routes done =>
    obtain ⟨kept,stapled,_⟩ := forRoutes_rule keeper.Kept
      (fun _ route => ∃ v, visited v ∧ route.Stapled crypto given config v)
      (fun i route s s' route' _ kept done =>
        have here := keeper.update_stapled labelled (trusted i) kept done
        ⟨here.1,⟨_,among i,here.2⟩,fun _ good => good⟩) kept done
    exact ⟨kept,stapled⟩

theorem call_stapled (labelled : store.Labelled) (stapled : Stapled keeper config (fun _ => True) proxy)
    (c : ProxyCall (Visit ι ω) K) (trusted : Trusted crypto given c)
    (lives : (proxy.call toLower (some (suppliedProvider crypto store config)) c).2 ≠ .crashed) :
    Stapled keeper config (fun _ => True)
      (proxy.call toLower (some (suppliedProvider crypto store config)) c).1 := by
  cases c with
  | setRoutes visits newRoutes fallback =>
    simp only [call,setRoutes] at lives ⊢
    split at lives
    · exact absurd rfl lives
    · next s loaded done =>
      obtain ⟨kept,loaded,_⟩ := forRoutes_rule keeper.Kept
        (fun _ route => ∃ v : Visit ι ω, True ∧ route.Stapled crypto given config v)
        (fun i route s s' route' _ kept done =>
          have here := keeper.load_stapled kept done
          ⟨here.1,⟨_,trivial,here.2⟩,fun _ good => good⟩) stapled.kept done
      split
      · exact ⟨kept,stapled.routes⟩
      · exact ⟨kept,loaded⟩
  | checkCertificates visits => exact check_stapled labelled stapled.kept trusted (fun _ => trivial) lives

def RunStaples (crypto : Crypto K) (given : Responses) (config : ProviderConfig) (toLower : String → String)
    (store : Store σ ι ω) (w : World σ) : Prop :=
  ∀ (calls : List (ProxyCall (Visit ι ω) K)) (proxy : Proxy (World σ) K),
    ((machine toLower (some (suppliedProvider crypto store config))).restrict
      fun _ c => Trusted crypto given c).Run ⟨w,.empty⟩ calls proxy →
    Staples crypto given config toLower (suppliedProvider crypto store config) (fun _ : Visit ι ω => True) proxy ∧
    ∀ visits, (∀ i, (visits i).Trusted crypto given) →
      (proxy.call toLower (some (suppliedProvider crypto store config)) (.checkCertificates visits)).2 ≠ .crashed →
      Staples crypto given config toLower (suppliedProvider crypto store config) (∃ i, visits i = ·)
        (proxy.call toLower (some (suppliedProvider crypto store config)) (.checkCertificates visits)).1

theorem run_staples (labelled : store.Labelled) (keeper : Keeper store (Details.Vouched crypto given))
    (kept : keeper.Kept w) : RunStaples crypto given config toLower store w := by
  intro calls proxy run
  have stapled : Stapled keeper config (fun _ => True) proxy := by
    refine run.invariant (Stapled keeper config fun _ => True) (fun proxy c stapled enabled => ?_)
      ⟨kept,by simp [RouteTable.empty]⟩
    exact call_stapled labelled stapled c enabled.2 enabled.1
  refine ⟨stapled.staples,fun visits trusted lives => ?_⟩
  exact (check_stapled labelled stapled.kept trusted (fun i => ⟨i,rfl⟩) lives).staples

/-- Staples belong to their certificates. Over either store, if the staples that are stored at the
start were given for the certificates they are stored with, then at any later time a response that a
client gets is a good one for the certificate it comes with, a certificate which must be stapled comes
with one, and after a check with one that was given during it or not outdated at it. -/
theorem staples_belong (crypto : Crypto K) (json : Json) (given : Responses) (config : ProviderConfig)
    (toLower : String → String) :
    (∀ w : World (JsonStore Ref), (∀ r ∈ w.store.certificates, (w.heap r).Vouched crypto given) →
      RunStaples crypto given config toLower (JsonStore.asStore json) w) ∧
    ∀ w : World RedisHash, (∀ d, RedisStore.Holds json w.store d → d.Vouched crypto given) →
      RunStaples crypto given config toLower (RedisStore.asStore json) w :=
  ⟨fun _ vouched => run_staples (JsonStore.labelled json) (JsonStore.keeper json _) vouched,
    fun _ vouched => run_staples (RedisStore.labelled json) (RedisStore.keeper json _) vouched⟩

end Proxy

namespace Sample

def mustCrypto : Crypto String where
  x509KeyPair certificate privateKey :=
    if certificate = "signed" ∧ privateKey = "key" then .ok certificate
    else .error "tls: failed to find any PEM data in certificate input"
  extensions certificate := if certificate = "signed" then some (.ok ["1.3.6.1.5.5.7.1.24"]) else none
  pair_decodes := by
    intro certificate privateKey pair accepted
    split at accepted
    next same => simp [same.1]
    next => cases accepted

/-- The ACME server issues this certificate, and its responder the response until the time. -/
def stapledVisit (now : Int) (response : List UInt8) (until_ : Int) : Visit Unit WriteFile where
  now := now
  lego := ⟨fun _ => .ok ⟨["example.com"],90 * 24 * hour⟩,fun _ => .noARI⟩
  certifier :=
    { wait := none
      obtain := fun request =>
        if request.mustStaple then .ok ⟨"issuer","key","signed"⟩ else .error "acme: rejected"
      getOCSP := fun certificate =>
        if certificate = "signed" then .ok (response,some ⟨true,until_⟩) else .error "ocsp: unknown" }
  signer := ⟨.error "unused",fun _ _ => .error "unused"⟩
  later := now
  draw := fun _ positive => ⟨0,Int.le_refl 0,positive⟩
  drawIssued := fun _ positive => ⟨0,Int.le_refl 0,positive⟩
  lookup := ()
  saveRenewalInfo := .ok
  saveIssued := .ok
  saveStaple := .ok
  existing := ()

def goodResponses : Responses := fun certificate response until_ =>
  certificate = "signed" ∧ (response,until_) ∈ [([1],36 * hour),([2],180 * hour)]

theorem stapledVisit_trusted (listed : (response,until_) ∈ [([1],36 * hour),([2],180 * hour)]) :
    (stapledVisit now response until_).Trusted mustCrypto goodResponses where
  responder := by
    intro certificate bytes answer answered _
    simp only [stapledVisit] at answered
    split at answered
    · next same =>
      cases answered
      exact ⟨same,listed⟩
    · cases answered
  ordered := by simp [stapledVisit]
  signed := by simp [stapledVisit]

def stapledConfig : ProviderConfig where
  lego := some (.ok ())
  preferredSuppliers := ["lego"]
  wildcardDomains := []
  useStaples := true

def stapledDetails : Details :=
  { bare "lego" "example.com" [] (90 * 24 * hour) with
    issuer := "issuer",privateKey := "key",certificate := "signed",ocspResponse := [1]
    nextOcspUpdate := 36 * hour,ariNextUpdate := 90 * 24 * hour,ariExplanation := "ARI not supported" }

def stapledJson : Json :=
  .ofTable [] [([stapledDetails],"[issued]"),
    ([stapledDetails.withStaple ⟨[2],180 * hour⟩],"[stapled]"),
    ([stapledDetails.withProvider ""],"[unlabelled]")] noneAlone (by decide)

def stapledProvider : CertificateProvider (World (JsonStore Ref)) (Visit Unit WriteFile) String :=
  suppliedProvider mustCrypto (JsonStore.asStore stapledJson) stapledConfig

def stapledCalls : List (ProxyCall (Visit Unit WriteFile) String) :=
  [.setRoutes (fun _ => stapledVisit 0 [1] (36 * hour)) [plainRoute .notChecked] none,
    .checkCertificates fun _ => stapledVisit 0 [1] (36 * hour)]

def stapledOnce : Proxy (World (JsonStore Ref)) String :=
  (Proxy.machine asciiLower (some stapledProvider)).after ⟨emptyWorld,.empty⟩ stapledCalls

def stapledTwice : Proxy (World (JsonStore Ref)) String :=
  (stapledOnce.call asciiLower (some stapledProvider)
    (.checkCertificates fun _ => stapledVisit (13 * hour) [2] (180 * hour))).1

/-- A day before its response would be outdated, a client gets the next one. -/
theorem restapled :
    Proxy.Staples mustCrypto goodResponses stapledConfig asciiLower stapledProvider
      (∃ _i : Nat, stapledVisit (13 * hour) [2] (180 * hour) = ·) stapledTwice ∧
    stapledTwice.table.view.certificateForClient asciiLower (some stapledProvider) "example.com" =
      .ok (some ⟨"signed",[2]⟩) := by
  refine ⟨?_,by decide +kernel⟩
  have run : ((Proxy.machine asciiLower (some stapledProvider)).restrict
      fun _ c => Proxy.Trusted mustCrypto goodResponses c).Run ⟨emptyWorld,.empty⟩ stapledCalls stapledOnce :=
    .cons ⟨by decide +kernel,trivial⟩ (.cons ⟨by decide +kernel,fun _ => stapledVisit_trusted (by simp)⟩ .nil)
  have belong := (Proxy.staples_belong mustCrypto stapledJson goodResponses stapledConfig asciiLower).1 emptyWorld
    (by simp [emptyWorld,JsonStore.empty]) stapledCalls stapledOnce run
  exact belong.2 _ (fun _ => stapledVisit_trusted (by simp)) (by decide +kernel)

/-- The same certificate, stored before providers were tracked. -/
def unlabelled : World (JsonStore Ref) :=
  ⟨fun _ => stapledDetails.withProvider "",1,⟨[0],none⟩,[]⟩

def selfSignedProvider : CertificateProvider (World (JsonStore Ref)) (Visit Unit WriteFile) String :=
  suppliedProvider mustCrypto (JsonStore.asStore stapledJson) { stapledConfig with preferredSuppliers := ["selfsigned"] }

-- with the self-signed supplier in charge it is served with a response that is half a day old
example : ((Proxy.machine asciiLower (some selfSignedProvider)).after ⟨unlabelled,.empty⟩
    [.setRoutes (fun _ => stapledVisit 0 [] 0) [plainRoute .notChecked] none,
      .checkCertificates fun _ => stapledVisit (48 * hour) [] 0]).table.view.certificateForClient asciiLower
        (some selfSignedProvider) "example.com" = .ok (some ⟨"signed",[1]⟩) := by
  decide +kernel

end Sample

end Centauri
