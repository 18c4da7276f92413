import Centauri.ManagerRules
import Centauri.RouteContinuity

/-! What `CertificateGood` is worth where no ARI data decides on renewals. Such a status is
set only while the certificate has more than the supplier's minimum validity left, and until
that has passed neither failing checks nor reloads take the certificate away. -/
namespace Centauri

variable {K : Type}

/-- A genuine certificate without ARI data, which is due when its expiry says so. -/
structure Details.Plain (crypto : Crypto K) (expiry : K → Int) (d : Details) : Prop
    extends Genuine crypto expiry d where
  silent : d.ariRenewalTime = 0

structure PlainStock (crypto : Crypto K) (expiry : K → Int) (w : World (JsonStore Ref)) : Prop
    extends Sound w where
  plain : ∀ q ∈ w.store.certificates, (w.heap q).Plain crypto expiry

theorem PlainStock.stocked {crypto : Crypto K} (stock : PlainStock crypto expiry w) : Stocked crypto expiry w :=
  ⟨stock.toSound,fun q member => (stock.plain q member).toGenuine⟩

structure Silent (answers : Answers Unit WriteFile) : Prop where
  refreshed : ∀ info, answers.renewalInfo = .ok info → info.ariRenewalTime = 0
  issued : ∀ d, answers.issued = .ok d → d.ariRenewalTime = 0
  annotated : ∀ info, answers.issuedRenewalInfo = .ok info → info.ariRenewalTime = 0

section Calls

variable {json : Json} {crypto : Crypto K} {expiry : K → Int} {m : Manager} {supplier : Supplier}
  {name subject : String} {altNames : List String} {answers : Answers Unit WriteFile} {t horizon now : Int}
  {w : World (JsonStore Ref)} {r : Ref}

theorem PlainStock.call (stock : PlainStock crypto expiry w) (c : Call) : PlainStock crypto expiry (w.call c) :=
  ⟨⟨stock.distinct,stock.allocated⟩,stock.plain⟩

variable (json) in
theorem PlainStock.save (stock : PlainStock crypto expiry w) (how : WriteFile) (allocated : r < w.fresh)
    (plain : (w.heap r).Plain crypto expiry) :
    PlainStock crypto expiry (Manager.save (JsonStore.asStore json) now how r w).1 where
  toSound := stock.toSound.saved how allocated
  plain := by
    intro q member
    rw [certificates_save] at member
    rcases Expiring.mem_of_mem_save member with rfl | member
    · exact plain
    · exact stock.plain q member

theorem PlainStock.modify (stock : PlainStock crypto expiry w) (f : Details → Details)
    (keys : ∀ d, (f d).key = d.key) (plain : (f (w.heap r)).Plain crypto expiry) :
    PlainStock crypto expiry (w.modify r f) where
  toSound := stock.toSound.modify f keys r
  plain := by
    intro q member
    by_cases same : q = r
    · subst same
      simpa [World.modify] using plain
    · simpa [World.modify,Function.update_of_ne same] using stock.plain q member

def InHand (crypto : Crypto K) (expiry : K → Int) (w : World (JsonStore Ref)) (r : Ref) : Prop :=
  r < w.fresh ∧ (w.heap r).Plain crypto expiry

variable (json) in
/-- It is rewritten and saved. -/
theorem PlainStock.resave (stock : PlainStock crypto expiry w) (how : WriteFile) (allocated : r < w.fresh)
    (f : Details → Details) (keys : ∀ d, (f d).key = d.key) (plain : (f (w.heap r)).Plain crypto expiry) :
    PlainStock crypto expiry (Manager.save (JsonStore.asStore json) now how r (w.modify r f)).1 ∧
      InHand crypto expiry (Manager.save (JsonStore.asStore json) now how r (w.modify r f)).1 r := by
  have there : ((w.modify r f).heap r).Plain crypto expiry := by
    simpa [World.modify] using plain
  exact ⟨(stock.modify f keys plain).save json how allocated there,allocated,there⟩

theorem Details.Plain.issuedAs {d : Details} {answer : Except String RenewalInfo} (plain : d.Plain crypto expiry)
    (silent : ∀ info, answer = .ok info → info.ariRenewalTime = 0) :
    (d.issuedAs name answer).Plain crypto expiry := by
  refine ⟨plain.toGenuine.issuedAs name answer,?_⟩
  cases answer with
  | error message => exact plain.silent
  | ok info => exact silent info rfl

theorem Details.issuedAs_notAfter (d : Details) (name : String) (answer : Except String RenewalInfo) :
    (d.issuedAs name answer).notAfter = d.notAfter := by
  cases answer <;> rfl

theorem Details.Plain.lasts {d : Details} (plain : d.Plain crypto expiry)
    (notDue : d.shouldRenew now margin = false) (reach : horizon ≤ now + margin) : horizon < d.notAfter := by
  simp only [Details.shouldRenew,plain.silent,if_true,Bool.not_eq_false',Details.validFor_iff] at notDue
  omega

/-- A certificate is handed out when it is not due or has just been issued; both last. -/
theorem beyond_rule (silent : Silent answers) (ordinary : Ordinary crypto expiry horizon subject altNames answers) :
    Manager.Rule crypto m (JsonStore.asStore json) answers supplier name subject altNames (PlainStock crypto expiry)
      (PlainStock crypto expiry) (InHand crypto expiry)
      (fun w r => InHand crypto expiry w r ∧
        (horizon ≤ answers.now + supplier.minCertificateValidity → horizon < (w.heap r).notAfter)) where
  called stock _ := stock.call _
  hand_called hand _ := hand
  fit_called fit _ := fit
  found := by
    intro w w' r stock looked
    rw [lookup_json] at looked
    obtain ⟨rfl,found⟩ := Prod.mk.inj looked
    have member := ((getCertificate_eq_some_iff stock.distinct).mp found).1
    exact ⟨stock,stock.allocated r member,stock.plain r member⟩
  refreshed := by
    intro w r info stock ⟨allocated,plain⟩ answered
    exact stock.resave json _ allocated (Details.withRenewalInfo info) (fun _ => rfl)
      ⟨⟨plain.parses,plain.plain⟩,silent.refreshed info answered⟩
  settled _ hand notDue _ := ⟨hand,hand.2.lasts notDue⟩
  absent stock _ := stock.call _
  due stock _ _ := stock.call _
  refused stock _ := stock
  issued := by
    intro w d stock issued
    obtain ⟨genuine,beyond,_⟩ := ordinary.issued d issued
    obtain ⟨store,fresh,here,older⟩ := Manager.issue_spec (JsonStore.asStore json) answers.now
      answers.issuedRenewalInfo name d w _ rfl
    have allocated : w.fresh < (Manager.issuing (JsonStore.asStore json) answers name d w).fresh :=
      fresh ▸ Nat.lt_succ_self _
    have plain : ((Manager.issuing (JsonStore.asStore json) answers name d w).heap w.fresh).Plain crypto expiry := by
      refine here ▸ Details.Plain.issuedAs ⟨genuine,silent.issued d issued⟩ silent.annotated
    have grown : PlainStock crypto expiry (Manager.issuing (JsonStore.asStore json) answers name d w) := by
      refine ⟨stock.toSound.beyond store allocated.le older,fun q member => ?_⟩
      have member : q ∈ w.store.certificates := store ▸ member
      exact older q (stock.allocated q member) ▸ stock.plain q member
    refine ⟨grown.save json _ allocated plain,⟨allocated,plain⟩,fun _ => ?_⟩
    exact (congrArg Details.notAfter here).trans (d.issuedAs_notAfter ..) ▸ beyond
  stapled := by
    intro w r s stock ⟨allocated,plain⟩ notDue _
    have beyond (reach : horizon ≤ answers.now + supplier.minCertificateValidity) :
        horizon < (w.heap r).notAfter := plain.lasts notDue reach
    obtain ⟨stock,hand⟩ := stock.resave json answers.saveStaple allocated (Details.withStaple s) (fun _ => rfl)
      ⟨⟨plain.parses,plain.plain⟩,plain.silent⟩
    refine ⟨stock,hand,?_⟩
    simpa [Manager.save,World.modify,Details.withStaple] using beyond

/-- Whether a call is made in time for the horizon or not, the stock stays plain; if it is,
what it returns lasts beyond the horizon. -/
theorem getCertificate_beyond (silent : Silent answers)
    (ordinary : Ordinary crypto expiry horizon subject altNames answers) (stock : PlainStock crypto expiry w)
    (done : m.getCertificate crypto (JsonStore.asStore json) answers preferredSupplier subject altNames w =
      (w',out)) :
    PlainStock crypto expiry w' ∧ ∀ key, out = .ok key → ∃ supplier name,
      m.supplier preferredSupplier = .ok (supplier,name) ∧
      (horizon ≤ answers.now + supplier.minCertificateValidity → horizon < expiry key.pair) := by
  cases resolved : m.supplier preferredSupplier with
  | error message =>
    rw [Manager.getCertificate,resolved] at done
    cases done
    exact ⟨stock,fun _ returned => by cases returned⟩
  | ok found =>
    obtain ⟨supplier,name⟩ := found
    have rule : Manager.Rule crypto m (JsonStore.asStore json) answers supplier name subject altNames _ _ _ _ :=
      beyond_rule silent ordinary
    have follows := done ▸ rule.getCertificate resolved stock
    refine ⟨follows.inv,fun key returned => ⟨supplier,name,rfl,fun reach => ?_⟩⟩
    obtain ⟨r,⟨⟨_,plain⟩,beyond⟩,parsed⟩ := follows.returned key returned
    exact plain.toGenuine.expiry_eq parsed ▸ beyond reach

end Calls

def Route.Within (m : Manager) (horizon now : Int) (route : Route K) : Prop :=
  ∀ supplier name, m.supplier route.provider = .ok (supplier,name) →
    horizon ≤ now + supplier.minCertificateValidity

section Routes

variable {json : Json} {crypto : Crypto K} {expiry : K → Int} {horizon : Int} {m : Manager}
  {a : Answers Unit WriteFile × Unit} {route route' : Route K} {w w' : World (JsonStore Ref)}

/-- A certificate that is returned as needing no renewal is not due. -/
theorem existing_not_due (looked : m.getExistingCertificate crypto (JsonStore.asStore json) now how
      preferredSupplier subject altNames w = (w',.found key false)) :
    ∃ supplier name r, m.supplier preferredSupplier = .ok (supplier,name) ∧
      w.store.getCertificate w.heap name subject altNames = some r ∧
      (w.heap r).shouldRenew now supplier.minCertificateValidity = false := by
  obtain ⟨_,found⟩ := existing_spec looked
  obtain ⟨supplier,name,r,resolved,answer,_⟩ := found key false rfl
  refine ⟨supplier,name,r,resolved,answer,?_⟩
  simp only [Manager.getExistingCertificate,resolved,lookup_json,answer] at looked
  have judged := (Manager.judge_found_iff crypto now supplier (w.heap r) key false).mp (Prod.mk.inj looked).2
  exact (judged.2.2.mp rfl).notDue

/-- A route that is loaded with a certificate in stock that lasts, or as good, is served
beyond the horizon. -/
theorem load_beyond (stock : PlainStock crypto expiry w) (early : a.1.now ≤ horizon)
    (within : route.Within m horizon a.1.now)
    (done : CertificateProvider.loadCertificate (some (m.asProvider crypto (JsonStore.asStore json)))
      a route w = (w',some route'))
    (either : Answered m horizon w route ∨ route'.certificateStatus = .good) :
    ServedBeyond expiry horizon route' ∧ Answered m horizon w route' := by
  unfold CertificateProvider.loadCertificate at done
  dsimp only [Manager.asProvider] at done
  split at done
  next left cert renewal looked =>
    cases done
    obtain ⟨supplier,name,r,resolved,answer,parsed⟩ := (existing_spec looked).2 cert renewal rfl
    have plain := stock.plain r ((getCertificate_eq_some_iff stock.distinct).mp answer).1
    have beyond : horizon < (w.heap r).notAfter := by
      rcases either with ⟨supplier',name',resolved',r',answer',beyond⟩ | good
      · obtain ⟨rfl,rfl⟩ := Prod.mk.inj (Except.ok.inj (resolved.symm.trans resolved'))
        exact Option.some.inj (answer'.symm.trans answer) ▸ beyond
      · have unhurried : renewal = false := by
          cases renewal
          · rfl
          · cases good
        subst unhurried
        obtain ⟨supplier',name',r',resolved',answer',notDue⟩ := existing_not_due looked
        obtain ⟨rfl,rfl⟩ := Prod.mk.inj (Except.ok.inj (resolved.symm.trans resolved'))
        obtain rfl := Option.some.inj (answer'.symm.trans answer)
        have reach := within supplier name resolved
        simp only [Details.shouldRenew,plain.silent,if_true,Bool.not_eq_false',Details.validFor_iff] at notDue
        omega
    refine ⟨⟨by cases renewal <;> rfl,cert,rfl,plain.toGenuine.expiry_eq parsed ▸ beyond⟩,?_⟩
    exact ⟨supplier,name,resolved,r,answer,beyond⟩
  next left _ _ looked =>
    cases done
    rcases either with ⟨supplier,name,resolved,r,answer,beyond⟩ | good
    · have plain := stock.plain r ((getCertificate_eq_some_iff stock.distinct).mp answer).1
      have usable : Usable crypto a.1.now (w.heap r) := plain.toGenuine.usable (Int.lt_of_le_of_lt early beyond)
      have found : ∃ cert renewal, (m.getExistingCertificate crypto (JsonStore.asStore json) a.1.now a.2
          route.provider route.certificateNames.1 route.certificateNames.2 w).2 = .found cert renewal :=
        (existing_found_iff a.2 a.1.now _).mpr ⟨supplier,name,resolved,r,answer,usable⟩
      rw [looked] at found
      obtain ⟨cert,renewal,returned⟩ := found
      cases returned
    · cases good
  next => cases done

/-- An update that succeeds leaves a certificate that lasts; one that fails falls back on what
is in stock. -/
theorem update_beyond (stock : PlainStock crypto expiry w) (silent : Silent a.1)
    (ordinary : Ordinary crypto expiry horizon route.certificateNames.1 route.certificateNames.2 a.1)
    (done : (m.asProvider crypto (JsonStore.asStore json)).updateCert a route w = (w',some route')) :
    PlainStock crypto expiry w' ∧ Carries horizon w w' ∧ (route.Within m horizon a.1.now →
      Answered m horizon w route ∨ route'.certificateStatus = .good →
      ServedBeyond expiry horizon route' ∧ Answered m horizon w' route') := by
  unfold CertificateProvider.updateCert at done
  dsimp only at done
  split at done
  next left cert called =>
    obtain ⟨stock',lasts⟩ := getCertificate_beyond silent ordinary stock called
    obtain ⟨_,carries,answered⟩ := getCertificate_result ordinary stock.stocked called
    cases done
    refine ⟨stock',carries,fun within _ => ?_⟩
    obtain ⟨supplier,name,resolved,beyond⟩ := lasts cert rfl
    have beyond := beyond (within supplier name resolved)
    exact ⟨⟨rfl,cert,rfl,beyond⟩,answered cert rfl beyond⟩
  next left message called =>
    obtain ⟨stock',_⟩ := getCertificate_beyond silent ordinary stock called
    obtain ⟨_,carries,_⟩ := getCertificate_result ordinary stock.stocked called
    obtain ⟨rfl,_⟩ : _ ∧ Backed m expiry horizon left route' := load_backed stock'.stocked done
    refine ⟨stock',carries,fun within either => load_beyond stock' ordinary.early within done ?_⟩
    rcases either with ⟨supplier,name,resolved,lasts⟩ | good
    · exact .inl ⟨supplier,name,resolved,carries _ _ _ lasts⟩
    · exact .inr good
  next => cases done

end Routes

/-- The route is for the provider and names, in any order. -/
def Route.IsFor (m : Manager) (name subject : String) (altNames : List String) (route : Route K) : Prop :=
  (∃ supplier, m.supplier route.provider = .ok (supplier,name)) ∧ route.certificateNames.1 = subject ∧
    route.certificateNames.2.Perm altNames

section Names

variable {m : Manager} {name subject : String} {altNames : List String} {a b : Route K}

theorem Route.IsFor.of_config (same : a.config = b.config) (forNames : a.IsFor m name subject altNames) :
    b.IsFor m name subject altNames := by
  have forConfig : a.config.IsFor m name subject altNames := forNames
  rw [same] at forConfig
  exact forConfig

/-- Such routes share one answer of the store. -/
theorem Route.IsFor.answered_iff (forNames : a.IsFor m name subject altNames) (sound : Sound w) :
    Answered m t w a ↔ Lasts t name subject altNames w := by
  obtain ⟨⟨supplier,resolved⟩,rfl,perm⟩ := forNames
  constructor
  · rintro ⟨supplier',name',resolved',lasts⟩
    obtain ⟨rfl,rfl⟩ := Prod.mk.inj (Except.ok.inj (resolved.symm.trans resolved'))
    exact lasts.perm sound.distinct perm
  · exact fun lasts => ⟨supplier,name,resolved,lasts.perm sound.distinct perm.symm⟩

end Names

namespace Proxy

variable {json : Json} {crypto : Crypto K} {expiry : K → Int} {m : Manager} {toLower : String → String}
  {name subject : String} {altNames : List String} {t horizon : Int}
  {proxy after : Proxy (World (JsonStore Ref)) K}

/-- Nothing but genuine certificates without ARI data is issued. -/
def Undirected (crypto : Crypto K) (expiry : K → Int) (proxy : Proxy (World (JsonStore Ref)) K) :
    ProxyCall (Answers Unit WriteFile × Unit) K → Prop
  | .setRoutes _ _ _ => True
  | .checkCertificates answers => ∀ i route, proxy.table.routes[i]? = some route → Silent (answers i).1 ∧
      Centauri.Ordinary crypto expiry (answers i).1.now route.certificateNames.1 route.certificateNames.2
        (answers i).1

/-- The same between two times, the latter of which every certificate outlives that is issued. -/
def Between (crypto : Crypto K) (expiry : K → Int) (t horizon : Int) (proxy : Proxy (World (JsonStore Ref)) K) :
    ProxyCall (Answers Unit WriteFile × Unit) K → Prop
  | .setRoutes answers _ _ => ∀ i, t ≤ (answers i).1.now ∧ (answers i).1.now ≤ horizon
  | .checkCertificates answers => ∀ i route, proxy.table.routes[i]? = some route → Silent (answers i).1 ∧
      t ≤ (answers i).1.now ∧ Centauri.Ordinary crypto expiry horizon route.certificateNames.1
        route.certificateNames.2 (answers i).1

theorem setRoutes_state (stock : PlainStock crypto expiry proxy.state) (answers : Nat → Answers Unit WriteFile × Unit)
    (newRoutes : List (Route K)) (fallback : Option Nat)
    (lives : (proxy.setRoutes toLower (some (m.asProvider crypto (JsonStore.asStore json))) answers newRoutes
      fallback).2 ≠ .crashed) :
    (proxy.setRoutes toLower (some (m.asProvider crypto (JsonStore.asStore json))) answers newRoutes
      fallback).1.state = proxy.state := by
  unfold setRoutes at lives ⊢
  split at lives
  · exact absurd rfl lives
  next loaded done =>
    obtain ⟨rfl,_⟩ := forRoutes_rule (· = proxy.state) (fun _ _ => True)
      (fun i route s s' route' _ same here => by
        subst same
        exact ⟨(load_backed (t := 0) stock.stocked here).1,trivial,fun _ _ => trivial⟩) rfl done
    split <;> rfl

theorem call_plain (stock : PlainStock crypto expiry proxy.state) (c : ProxyCall (Answers Unit WriteFile × Unit) K)
    (undirected : Undirected crypto expiry proxy c)
    (lives : (proxy.call toLower (some (m.asProvider crypto (JsonStore.asStore json))) c).2 ≠ .crashed) :
    PlainStock crypto expiry
      (proxy.call toLower (some (m.asProvider crypto (JsonStore.asStore json))) c).1.state := by
  cases c with
  | setRoutes answers newRoutes fallback =>
    rw [call] at lives ⊢
    rw [setRoutes_state stock answers newRoutes fallback lives]
    exact stock
  | checkCertificates answers =>
    simp only [call,checkCertificates] at lives ⊢
    split at lives
    · exact absurd rfl lives
    next routes done =>
      exact (forRoutes_rule (PlainStock crypto expiry) (fun _ _ => True)
        (fun i route s s' route' at_i stock here =>
          have regular := undirected i route at_i
          ⟨(update_beyond stock regular.1 regular.2 here).1,trivial,fun _ _ => trivial⟩) stock done).1

/-- What one pass of either loop does for a route, seen from the start of the loop. -/
def Secures (m : Manager) (expiry : K → Int) (horizon : Int) (name subject : String) (altNames : List String)
    (start s : World (JsonStore Ref)) (route : Route K) : Prop :=
  route.IsFor m name subject altNames →
    Lasts horizon name subject altNames start ∨ route.certificateStatus = .good →
    ServedBeyond expiry horizon route ∧ Lasts horizon name subject altNames s

theorem secures_carried (carries : Carries horizon s s') {start : World (JsonStore Ref)} {route : Route K}
    (secures : Secures m expiry horizon name subject altNames start s route) :
    Secures m expiry horizon name subject altNames start s' route := fun forNames either =>
  have here := secures forNames either
  ⟨here.1,carries _ _ _ here.2⟩

/-- A call that succeeds leaves every route for the names served beyond the horizon, if the
store could answer for it before or the call finds it good. -/
theorem call_beyond (stock : PlainStock crypto expiry proxy.state) (c : ProxyCall (Answers Unit WriteFile × Unit) K)
    (between : Between crypto expiry t horizon proxy c)
    (reach : ∀ supplier, m.suppliers name = some supplier → horizon ≤ t + supplier.minCertificateValidity)
    (done : proxy.call toLower (some (m.asProvider crypto (JsonStore.asStore json))) c = (after,.ok ())) :
    PlainStock crypto expiry after.state ∧ Carries horizon proxy.state after.state ∧
      ∀ route ∈ after.table.routes,
        Secures m expiry horizon name subject altNames proxy.state after.state route := by
  have within {now : Int} {route : Route K} (forNames : route.IsFor m name subject altNames) (late : t ≤ now) :
      route.Within m horizon now := by
    intro supplier name' resolved
    obtain ⟨⟨supplier',resolved'⟩,_⟩ := forNames
    obtain ⟨rfl,rfl⟩ := Prod.mk.inj (Except.ok.inj (resolved.symm.trans resolved'))
    have enough := reach supplier (Manager.supplier_known resolved)
    omega
  cases c with
  | setRoutes answers newRoutes fallback =>
    simp only [call,setRoutes] at done
    split at done
    · cases done
    next s loaded loads =>
    split at done
    · cases done
    cases done
    have rule := forRoutes_rule (· = proxy.state)
      (fun _ => Secures m expiry horizon name subject altNames proxy.state proxy.state)
      (fun i route s s' route' _ same here => by
        subst same
        obtain ⟨unchanged,_⟩ : _ ∧ Backed m expiry horizon proxy.state route' := load_backed stock.stocked here
        refine ⟨unchanged,fun forNames either => ?_,fun _ held => held⟩
        have old := forNames.of_config (CertificateProvider.loadCertificate_config here)
        have served := load_beyond stock (between i).2 (within old (between i).1) here
          (either.imp_left (old.answered_iff stock.toSound).mpr)
        exact ⟨served.1,(forNames.answered_iff stock.toSound).mp served.2⟩) rfl loads
    obtain ⟨rfl,secures,_⟩ := rule
    exact ⟨stock,fun _ _ _ lasts => lasts,secures⟩
  | checkCertificates answers =>
    simp only [call,checkCertificates] at done
    split at done
    · cases done
    next s routes updates =>
    cases done
    have rule := forRoutes_rule (fun s => PlainStock crypto expiry s ∧ Carries horizon proxy.state s)
      (Secures m expiry horizon name subject altNames proxy.state)
      (fun i route s s' route' at_i inv (here : CertificateProvider.checkCertificate
          (some (m.asProvider crypto (JsonStore.asStore json))) (answers i) route s = (s',some route')) => by
        obtain ⟨stock,carried⟩ := inv
        obtain ⟨silent,late,ordinary⟩ := between i route at_i
        obtain ⟨stock',carries,serves⟩ := update_beyond stock silent ordinary here
        refine ⟨⟨stock',carried.trans carries⟩,fun forNames either => ?_,fun _ => secures_carried carries⟩
        have old := forNames.of_config (CertificateProvider.checkCertificate_config here)
        have served := serves (within old late)
          (either.imp_left fun lasts => (old.answered_iff stock.toSound).mpr (carried _ _ _ lasts))
        exact ⟨served.1,(forNames.answered_iff stock'.toSound).mp served.2⟩)
      ⟨stock,fun _ _ _ lasts => lasts⟩ updates
    exact ⟨rule.1.1,rule.1.2,rule.2.1⟩

/-- The store answers for the names beyond the horizon, and so does every route for them. -/
structure Lasting (m : Manager) (crypto : Crypto K) (expiry : K → Int) (horizon : Int) (name subject : String)
    (altNames : List String) (proxy : Proxy (World (JsonStore Ref)) K) : Prop where
  stock : PlainStock crypto expiry proxy.state
  lasts : Lasts horizon name subject altNames proxy.state
  served : ∀ route ∈ proxy.table.routes, route.IsFor m name subject altNames →
    ServedBeyond expiry horizon route

/-- A reload that is refused leaves everything as it was. -/
theorem call_refused (stock : PlainStock crypto expiry proxy.state) (c : ProxyCall (Answers Unit WriteFile × Unit) K)
    (done : proxy.call toLower (some (m.asProvider crypto (JsonStore.asStore json))) c = (after,.err message)) :
    after = proxy := by
  cases c with
  | setRoutes answers newRoutes fallback =>
    have state : after.state = proxy.state := by
      rw [call] at done
      have lives : (proxy.setRoutes toLower (some (m.asProvider crypto (JsonStore.asStore json))) answers
          newRoutes fallback).2 ≠ .crashed := by
        rw [done]
        simp
      have kept := setRoutes_state stock answers newRoutes fallback lives
      rw [done] at kept
      exact kept
    rcases setRoutes_cases toLower (some (m.asProvider crypto (JsonStore.asStore json))) answers newRoutes
      fallback proxy with ⟨s,cases⟩ | ⟨s,message,_,cases⟩ | ⟨s,loaded,domains,_,_,_,cases⟩
    · cases done.symm.trans cases
    · cases done.symm.trans cases
      change s = proxy.state at state
      rw [state]
    · cases done.symm.trans cases
  | checkCertificates answers =>
    rcases checkCertificates_cases (some (m.asProvider crypto (JsonStore.asStore json))) answers proxy with
      ⟨s,cases⟩ | ⟨s,routes,_,cases⟩
    · cases done.symm.trans cases
    · cases done.symm.trans cases

theorem call_lasting (lasting : Lasting m crypto expiry horizon name subject altNames proxy)
    (c : ProxyCall (Answers Unit WriteFile × Unit) K) (between : Between crypto expiry t horizon proxy c)
    (reach : ∀ supplier, m.suppliers name = some supplier → horizon ≤ t + supplier.minCertificateValidity)
    (lives : (proxy.call toLower (some (m.asProvider crypto (JsonStore.asStore json))) c).2 ≠ .crashed) :
    Lasting m crypto expiry horizon name subject altNames
      (proxy.call toLower (some (m.asProvider crypto (JsonStore.asStore json))) c).1 := by
  cases done : proxy.call toLower (some (m.asProvider crypto (JsonStore.asStore json))) c with
  | mk after out =>
    cases out with
    | ok value =>
      obtain ⟨stock,carries,secures⟩ := call_beyond lasting.stock c between reach done
      exact ⟨stock,carries _ _ _ lasting.lasts,fun route member forNames =>
        (secures route member forNames (.inl lasting.lasts)).1⟩
    | err message =>
      rw [call_refused lasting.stock c done]
      exact lasting
    | crashed =>
      rw [done] at lives
      exact absurd rfl lives

/-- A route found good is good for a while. Where renewals go by expiry alone and no staples are
needed, once a call leaves the routes for some names and provider as good, every route for them is
served until any time within the supplier's minimum validity that all certificates issued meanwhile
outlive, with a certificate that does too, however many checks fail, whatever is reloaded, and
whether or not files can be written. -/
theorem good_is_kept (json : Json) (crypto : Crypto K) (expiry : K → Int) (toLower : String → String)
    (m : Manager) (start : JsonWorld) (distinct : Expiring.Distinct (keyOf start.heap) start.store.certificates)
    (plain : ∀ q ∈ start.store.certificates, (start.heap q).Plain crypto expiry) (name subject : String)
    (altNames : List String) (supplier : Supplier) (known : m.suppliers name = some supplier) (t horizon : Int)
    (reach : horizon ≤ t + supplier.minCertificateValidity)
    (xs ys : List (ProxyCall (Answers Unit WriteFile × Unit) K)) (c : ProxyCall (Answers Unit WriteFile × Unit) K)
    (before after final : Proxy (World (JsonStore Ref)) K)
    (run : ((machine toLower (some (m.asProvider crypto (JsonStore.asStore json)))).restrict
      (Undirected crypto expiry)).Run ⟨start.toWorld,.empty⟩ xs before)
    (between : Between crypto expiry t horizon before c)
    (done : before.call toLower (some (m.asProvider crypto (JsonStore.asStore json))) c = (after,.ok ()))
    (listed : ∃ route ∈ after.table.routes, route.IsFor m name subject altNames)
    (good : ∀ route ∈ after.table.routes, route.IsFor m name subject altNames → route.certificateStatus = .good)
    (later : ((machine toLower (some (m.asProvider crypto (JsonStore.asStore json)))).restrict
      (Between crypto expiry t horizon)).Run after ys final) :
    ∀ route ∈ final.table.routes, route.IsFor m name subject altNames → ServedBeyond expiry horizon route := by
  have stock : PlainStock crypto expiry before.state := by
    refine run.invariant (fun proxy => PlainStock crypto expiry proxy.state) (fun proxy c stock enabled => ?_)
      ⟨⟨distinct,start.allocated⟩,plain⟩
    exact call_plain stock c enabled.2 enabled.1
  have reaches (other : Supplier) (found : m.suppliers name = some other) :
      horizon ≤ t + other.minCertificateValidity := by
    rw [Option.some.inj (found.symm.trans known)]
    exact reach
  obtain ⟨stock',_,secures⟩ := call_beyond stock c between reaches done
  obtain ⟨route,member,forNames⟩ := listed
  have first : Lasting m crypto expiry horizon name subject altNames after :=
    ⟨stock',(secures route member forNames (.inr (good route member forNames))).2,
      fun route member forNames => (secures route member forNames (.inr (good route member forNames))).1⟩
  have last : Lasting m crypto expiry horizon name subject altNames final := by
    refine later.invariant (Lasting m crypto expiry horizon name subject altNames) (fun proxy c lasting enabled => ?_)
      first
    exact call_lasting lasting c enabled.2 reaches enabled.1
  exact last.served

end Proxy

namespace Sample

def lenientCrypto : Crypto String where
  x509KeyPair certificate _ := .ok certificate
  extensions _ := some (.ok [])
  pair_decodes _ := rfl

def sixtyDays : Int := 24 * 60 * hour

def issuedOnce : Answers Unit WriteFile :=
  { Manager.unreachable 0 with issued := .ok (bare "" "example.com" [] sixtyDays) }

def lenientProvider : CertificateProvider (World (JsonStore Ref)) (Answers Unit WriteFile × Unit) String :=
  manager.asProvider lenientCrypto (JsonStore.asStore json)

def unissued : JsonWorld := ⟨⟨fun _ => bare "" "" [] 0,0,.empty,[]⟩,by simp [JsonStore.empty]⟩

def firstReload : ProxyCall (Answers Unit WriteFile × Unit) String :=
  .setRoutes (fun _ => (Manager.unreachable 0,())) [route] none

/-- A month later no supplier can be reached and the configuration is loaded again. -/
def monthLater : List (ProxyCall (Answers Unit WriteFile × Unit) String) :=
  [.checkCertificates fun _ => (Manager.unreachable (24 * 30 * hour),()),
    .setRoutes (fun _ => (Manager.unreachable (24 * 30 * hour),())) [route] none]

def lenientMachine : Machine (Proxy (World (JsonStore Ref)) String) (ProxyCall (Answers Unit WriteFile × Unit) String) :=
  Proxy.machine asciiLower (some lenientProvider)

def unissuedProxy : Proxy (World (JsonStore Ref)) String :=
  lenientMachine.after ⟨unissued.toWorld,.empty⟩ [firstReload]

def issuedProxy : Proxy (World (JsonStore Ref)) String :=
  lenientMachine.next unissuedProxy (.checkCertificates fun _ => (issuedOnce,()))

theorem unreachable_silent (now : Int) : Silent (Manager.unreachable now) := ⟨nofun,nofun,nofun⟩

theorem unreachable_ordinary (early : now ≤ t) :
    Ordinary lenientCrypto (fun _ => sixtyDays) t subject altNames (Manager.unreachable now) := ⟨early,nofun⟩

theorem issuedOnce_silent : Silent issuedOnce where
  refreshed := nofun
  issued := by
    intro d issued
    cases issued
    rfl
  annotated := nofun

theorem issuedOnce_ordinary : Ordinary lenientCrypto (fun _ => sixtyDays) (24 * 30 * hour) "example.com" []
    issuedOnce where
  early := by decide
  issued := by
    intro d issued
    cases issued
    exact ⟨⟨⟨"",rfl,rfl⟩,rfl⟩,by decide,by decide⟩

/-- The route that was found good is served to the end of the month, with its certificate
overdue. -/
theorem served_all_month :
    (lenientMachine.after issuedProxy monthLater).table.routes.map Route.certificateStatus = [.expiringSoon] ∧
    ∀ route ∈ (lenientMachine.after issuedProxy monthLater).table.routes,
      route.IsFor manager "lego" "example.com" [] →
        ServedBeyond (fun _ => sixtyDays) (24 * 30 * hour) route := by
  refine ⟨by decide +kernel,?_⟩
  have names : ∀ route ∈ unissuedProxy.table.routes, route.certificateNames = ("example.com",[]) := by
    decide +kernel
  have issues : Proxy.Between lenientCrypto (fun _ => sixtyDays) 0 (24 * 30 * hour) unissuedProxy
      (.checkCertificates fun _ => (issuedOnce,())) := by
    intro i route member
    rw [names route (List.mem_of_getElem? member)]
    exact ⟨issuedOnce_silent,Int.le_refl 0,issuedOnce_ordinary⟩
  have listed : ∃ route ∈ issuedProxy.table.routes, route.provider = "" ∧
      route.certificateNames = ("example.com",[]) := by decide +kernel
  have good : ∀ route ∈ issuedProxy.table.routes, route.certificateStatus = .good := by decide +kernel
  have succeeds : (unissuedProxy.call asciiLower (some lenientProvider)
      (.checkCertificates fun _ => (issuedOnce,()))).2 = .ok () := by decide +kernel
  obtain ⟨found,member,provider,named⟩ := listed
  refine Proxy.good_is_kept json lenientCrypto (fun _ => sixtyDays) asciiLower manager unissued (by decide) nofun
    "lego" "example.com" [] ⟨24 * 30 * hour,24 * hour⟩ (by decide) 0 (24 * 30 * hour) (by decide) [firstReload]
    monthLater _ unissuedProxy issuedProxy _ (.cons ⟨by decide +kernel,trivial⟩ .nil) issues
    (Prod.ext rfl succeeds) ⟨found,member,⟨_,provider ▸ Manager.sample_supplier⟩,?_,?_⟩
    (fun route member _ => good route member) ?_
  · rw [named]
  · rw [named]
  · have later : (0 : Int) ≤ 24 * 30 * hour := by decide
    refine .cons ⟨by decide +kernel,fun _ _ _ => ?_⟩ (.cons ⟨by decide +kernel,fun _ => ?_⟩ .nil)
    · exact ⟨unreachable_silent _,later,unreachable_ordinary (Int.le_refl _)⟩
    · exact ⟨later,Int.le_refl _⟩

end Sample

end Centauri
