import Centauri.RouteRenewal
import Centauri.RouteServing

/-! Reloads on the file store. A served route does not own its certificate: a reload
loads it anew. So the store must keep, for every route that serves a certificate lasting
until some time, an answer that lasts until then, whatever is saved for other routes. -/
namespace Centauri

variable {K : Type}

/-- The text is a key pair whose leaf expires when the entry says, and no staple is needed. -/
structure Genuine (crypto : Crypto K) (expiry : K → Int) (d : Details) : Prop where
  parses : ∃ pair, crypto.x509KeyPair d.certificate d.privateKey = .ok pair ∧ expiry pair = d.notAfter
  plain : d.requiresStaple crypto = some false

theorem Genuine.issuedAs {crypto : Crypto K} (genuine : Genuine crypto expiry d) (name : String)
    (answer : Except String RenewalInfo) : Genuine crypto expiry (d.issuedAs name answer) := by
  cases answer <;> exact ⟨genuine.parses,genuine.plain⟩

theorem Genuine.expiry_eq {crypto : Crypto K} (genuine : Genuine crypto expiry d)
    (parsed : d.keyPair crypto = .ok key) : expiry key.pair = d.notAfter := by
  obtain ⟨pair,accepted,same⟩ := genuine.parses
  rw [Details.keyPair,accepted] at parsed
  cases parsed
  exact same

theorem Genuine.usable {crypto : Crypto K} (genuine : Genuine crypto expiry d) (alive : now < d.notAfter) :
    Usable crypto now d := by
  obtain ⟨pair,accepted,_⟩ := genuine.parses
  refine ⟨by rw [Details.validFor_iff]; simpa using alive,fun must => ?_,⟨pair,d.ocspResponse⟩,?_⟩
  · have := genuine.plain.symm.trans must
    cases this
  · rw [Details.keyPair,accepted]

structure Stocked (crypto : Crypto K) (expiry : K → Int) (w : World (JsonStore Ref)) : Prop
    extends Sound w where
  genuine : ∀ q ∈ w.store.certificates, Genuine crypto expiry (w.heap q)

/-- The store's answer for the names is good beyond the time. -/
def Lasts (t : Int) (name subject : String) (altNames : List String) (w : World (JsonStore Ref)) : Prop :=
  ∃ r, w.store.getCertificate w.heap name subject altNames = some r ∧ t < (w.heap r).notAfter

/-- Every answer that lasts is replaced, if at all, by one that lasts. -/
def Carries (t : Int) (w w' : World (JsonStore Ref)) : Prop :=
  ∀ name subject altNames, Lasts t name subject altNames w → Lasts t name subject altNames w'

theorem Carries.trans (first : Carries t w₁ w₂) (second : Carries t w₂ w₃) : Carries t w₁ w₃ :=
  fun name subject altNames lasts => second name subject altNames (first name subject altNames lasts)

section Steps

variable {json : Json} {crypto : Crypto K} {expiry : K → Int} {t now : Int}
  {w : World (JsonStore Ref)} {r : Ref}

/-- Only the ARI fields change; an entry that lasts still does. -/
theorem Stocked.modify (stocked : Stocked crypto expiry w) (info : RenewalInfo) :
    Stocked crypto expiry (w.modify r (Details.withRenewalInfo info)) ∧
      Carries t w (w.modify r (Details.withRenewalInfo info)) := by
  have contents := w.heap_modify_cases r (Details.withRenewalInfo info)
  have keys : keyOf (w.modify r (Details.withRenewalInfo info)).heap = keyOf w.heap := by
    funext q
    rcases contents q with eq | eq <;> rw [keyOf,eq] <;> rfl
  refine ⟨⟨⟨keys ▸ stocked.distinct,stocked.allocated⟩,?_⟩,?_⟩
  · intro q member
    have before := stocked.genuine q member
    rcases contents q with eq | eq
    · exact eq ▸ before
    · rw [eq]
      exact ⟨before.parses,before.plain⟩
  · rintro name subject altNames ⟨q,found,lives⟩
    refine ⟨q,?_,?_⟩
    · rw [← found]
      exact selectCertificate_heap _ _ _ _ _ fun p _ => congrFun keys p
    · rcases contents q with eq | eq <;> rw [eq] <;> exact lives

variable (json) in
/-- A save disturbs only the entry of the same provider and names, and prunes only what
has expired. -/
theorem Stocked.save (stocked : Stocked crypto expiry w) (how : WriteFile) (early : now ≤ t)
    (allocated : r < w.fresh) (genuine : Genuine crypto expiry (w.heap r))
    (lives : r ∈ w.store.certificates ∨ t < (w.heap r).notAfter) :
    Stocked crypto expiry (Manager.save (JsonStore.asStore json) now how r w).1 ∧
      Carries t w (Manager.save (JsonStore.asStore json) now how r w).1 ∧
      ∀ name subject altNames, keyOf w.heap r = (name,subject,sortedCopy altNames) →
        t < (w.heap r).notAfter →
        Lasts t name subject altNames (Manager.save (JsonStore.asStore json) now how r w).1 := by
  have contents : (Manager.save (JsonStore.asStore json) now how r w).1.store.certificates =
      Expiring.save (keyOf w.heap) (expiryOf w.heap) w.store.certificates (now,r) :=
    JsonStore.saveCertificate_certificates json w.heap now how r w.store
  have distinct : Expiring.Distinct (keyOf w.heap)
      (Manager.save (JsonStore.asStore json) now how r w).1.store.certificates :=
    contents ▸ Expiring.save_distinct stocked.distinct
  have members (q : Ref) :
      q ∈ (Manager.save (JsonStore.asStore json) now how r w).1.store.certificates ↔
        (q = r ∨ q ∈ w.store.certificates ∧ keyOf w.heap q ≠ keyOf w.heap r) ∧
          now < (w.heap q).notAfter := by
    rw [contents,Expiring.mem_save stocked.distinct]
    rfl
  have own (name subject : String) (altNames : List String)
      (key : keyOf w.heap r = (name,subject,sortedCopy altNames)) (beyond : t < (w.heap r).notAfter) :
      Lasts t name subject altNames (Manager.save (JsonStore.asStore json) now how r w).1 :=
    ⟨r,(getCertificate_eq_some_iff distinct).mpr
      ⟨(members r).mpr ⟨.inl rfl,by omega⟩,.inl key⟩,beyond⟩
  -- An entry that lasts and shares the key of the saved one is the saved one, or makes way for it.
  have replaced (q : Ref) (member : q ∈ w.store.certificates) (beyond : t < (w.heap q).notAfter)
      (same : keyOf w.heap r = keyOf w.heap q) : t < (w.heap r).notAfter := by
    rcases lives with stored | lives
    · rw [stocked.distinct.eq stored member same]
      exact beyond
    · exact lives
  refine ⟨⟨⟨distinct,?_⟩,?_⟩,?_,own⟩
  · intro q member
    rcases ((members q).mp member).1 with rfl | ⟨old,_⟩
    · exact allocated
    · exact stocked.allocated q old
  · intro q member
    rcases ((members q).mp member).1 with rfl | ⟨old,_⟩
    · exact genuine
    · exact stocked.genuine q old
  · rintro name subject altNames ⟨q,found,beyond⟩
    obtain ⟨member,chosen⟩ := (getCertificate_eq_some_iff stocked.distinct).mp found
    by_cases exact : keyOf w.heap r = (name,subject,sortedCopy altNames)
    · -- The saved entry answers now, for the entry it replaced or in front of a bare one.
      refine own name subject altNames exact ?_
      rcases chosen with key | ⟨_,absent⟩
      · exact replaced q member beyond (exact.trans key.symm)
      · rcases lives with stored | lives
        · exact absurd exact (absent r stored)
        · exact lives
    · by_cases same : keyOf w.heap r = keyOf w.heap q
      · have beyond' := replaced q member beyond same
        refine ⟨r,(getCertificate_eq_some_iff distinct).mpr ⟨(members r).mpr ⟨.inl rfl,by omega⟩,?_⟩,
          beyond'⟩
        rcases chosen with key | ⟨bare,absent⟩
        · exact absurd (same.trans key) exact
        · refine .inr ⟨same.trans bare,fun p held => ?_⟩
          rcases ((members p).mp held).1 with rfl | ⟨old,_⟩
          · exact exact
          · exact absent p old
      · refine ⟨q,(getCertificate_eq_some_iff distinct).mpr
          ⟨(members q).mpr ⟨.inr ⟨member,Ne.symm same⟩,by omega⟩,?_⟩,beyond⟩
        rcases chosen with key | ⟨bare,absent⟩
        · exact .inl key
        · refine .inr ⟨bare,fun p held => ?_⟩
          rcases ((members p).mp held).1 with rfl | ⟨old,_⟩
          · exact exact
          · exact absent p old

/-- New objects are of no concern to the store. -/
theorem Stocked.beyond {w' : World (JsonStore Ref)} (stocked : Stocked crypto expiry w)
    (store : w'.store = w.store) (grown : w.fresh ≤ w'.fresh)
    (same : ∀ q < w.fresh, w'.heap q = w.heap q) : Stocked crypto expiry w' ∧ Carries t w w' := by
  have older (q : Ref) (member : q ∈ w.store.certificates) : w'.heap q = w.heap q :=
    same q (stocked.allocated q member)
  refine ⟨⟨stocked.toSound.beyond store grown same,?_⟩,?_⟩
  · intro q member
    rw [store] at member
    rw [older q member]
    exact stocked.genuine q member
  · rintro name subject altNames ⟨q,found,lives⟩
    have member := ((getCertificate_eq_some_iff stocked.distinct).mp found).1
    refine ⟨q,?_,by rw [older q member]; exact lives⟩
    rw [← found,store]
    exact selectCertificate_heap _ _ _ _ _ fun p held => congrArg Details.key (older p held)

end Steps

/-- A call that ends by the time, where a certificate that is issued is genuine, for the
names asked for, and lasts. -/
structure Ordinary (crypto : Crypto K) (expiry : K → Int) (t : Int) (subject : String)
    (altNames : List String) (answers : Answers Unit WriteFile) : Prop where
  early : answers.now ≤ t
  issued : ∀ d, answers.issued = .ok d →
    Genuine crypto expiry d ∧ t < d.notAfter ∧ d.isFor subject altNames = true

/-- After a call every answer that lasted still does, and so does the one behind the
certificate it returned. -/
structure Continues (crypto : Crypto K) (expiry : K → Int) (t : Int) (name subject : String)
    (altNames : List String) (w : World (JsonStore Ref))
    (result : World (JsonStore Ref) × Outcome (TlsCertificate K)) : Prop where
  stocked : Stocked crypto expiry result.1
  carries : Carries t w result.1
  lasts : ∀ key, result.2 = .ok key → t < expiry key.pair → Lasts t name subject altNames result.1

section Calls

variable {json : Json} {crypto : Crypto K} {expiry : K → Int} {t : Int} {m : Manager}
  {answers : Answers Unit WriteFile} {now : Int} {name subject : String} {altNames : List String}
  {w : World (JsonStore Ref)} {r : Ref}

/-- A certificate that lasts is saved for the names asked for, whether the file can be
written or not, and handed out. -/
theorem deliver_continues {ready : World (JsonStore Ref)} (how : WriteFile) (label : String)
    (early : now ≤ t) (stocked : Stocked crypto expiry ready) (carries : Carries t w ready)
    (allocated : r < ready.fresh) (genuine : Genuine crypto expiry (ready.heap r))
    (key : keyOf ready.heap r = (name,subject,sortedCopy altNames))
    (beyond : t < (ready.heap r).notAfter) :
    Continues crypto expiry t name subject altNames w
      (Manager.deliver crypto (JsonStore.asStore json) now how label r ready) := by
  obtain ⟨kept,carries',own⟩ : _ ∧ _ ∧ ∀ name subject altNames, _ → _ → Lasts t name subject altNames
      (Manager.save (JsonStore.asStore json) now how r ready).1 :=
    stocked.save json how early allocated genuine (.inr beyond)
  have lasts := own name subject altNames key beyond
  unfold Manager.deliver
  split
  next saved message failed =>
    rw [failed] at kept carries'
    exact ⟨kept,carries.trans carries',fun key returned => by cases returned⟩
  next saved done =>
    rw [done] at kept carries' lasts
    exact ⟨kept,carries.trans carries',fun _ _ _ => lasts⟩

variable (json m name) in
theorem obtain_continues (ordinary : Ordinary crypto expiry t subject altNames answers)
    (stocked : Stocked crypto expiry w) :
    Continues crypto expiry t name subject altNames w
      (m.obtain crypto (JsonStore.asStore json) answers name subject altNames w) := by
  unfold Manager.obtain
  cases issued : answers.issued with
  | error message =>
    exact ⟨⟨⟨stocked.distinct,stocked.allocated⟩,stocked.genuine⟩,fun _ _ _ lasts => lasts,
      fun key returned => by cases returned⟩
  | ok d =>
    obtain ⟨genuine,beyond,named⟩ := ordinary.issued d issued
    obtain ⟨store,grown,contents,older⟩ := Manager.issue_spec (JsonStore.asStore json) answers.now
      answers.issuedRenewalInfo name d (w.call (.getCertificate subject altNames m.shouldStaple)) _ rfl
    obtain ⟨stocked',carries⟩ : _ ∧ Carries t w _ :=
      stocked.beyond store (grown ▸ Nat.le_succ _) older
    apply deliver_continues _ _ ordinary.early stocked' carries (grown ▸ Nat.lt_succ_self _)
    · exact contents ▸ genuine.issuedAs name _
    · obtain ⟨rfl,perm⟩ := (Details.isFor_iff ..).mp named
      rw [keyOf,contents,Details.issuedAs_key,(sortedCopy_eq_iff _ _).mpr perm]
    · rw [contents]
      cases answers.issuedRenewalInfo <;> exact beyond

variable (json) in
/-- Refreshing ARI data changes neither the key pair nor what lasts. -/
theorem refresh_continues (early : answers.now ≤ t) (stocked : Stocked crypto expiry w)
    (member : r ∈ w.store.certificates) :
    Stocked crypto expiry (Manager.refresh (JsonStore.asStore json) answers r w) ∧
      Carries t w (Manager.refresh (JsonStore.asStore json) answers r w) ∧
      Genuine crypto expiry ((Manager.refresh (JsonStore.asStore json) answers r w).heap r) ∧
      ((Manager.refresh (JsonStore.asStore json) answers r w).heap r).notAfter =
        (w.heap r).notAfter := by
  have before := stocked.genuine r member
  have called : Stocked crypto expiry (w.call (.updateRenewalInfo r)) :=
    ⟨⟨stocked.distinct,stocked.allocated⟩,stocked.genuine⟩
  unfold Manager.refresh
  split
  · unfold Manager.updateRenewalInfo
    cases answers.renewalInfo with
    | error message => exact ⟨called,fun _ _ _ lasts => lasts,before,rfl⟩
    | ok info =>
      obtain ⟨stocked',carries⟩ : _ ∧ Carries t _ _ := called.modify (r := r) info
      have genuine := stocked'.genuine r member
      obtain ⟨kept,carries',_⟩ : _ ∧ Carries t _ _ ∧ _ := stocked'.save json answers.saveRenewalInfo
        early (called.allocated r member) genuine (.inl member)
      refine ⟨kept,carries.trans carries',genuine,?_⟩
      rw [Manager.heap_save]
      simp [World.modify,Details.withRenewalInfo]
  · exact ⟨stocked,fun _ _ _ lasts => lasts,before,rfl⟩

variable (json m) in
theorem proceed_continues (ordinary : Ordinary crypto expiry t subject altNames answers)
    (supplier : Supplier) (stocked : Stocked crypto expiry w)
    (genuine : Genuine crypto expiry (w.heap r))
    (answer : t < (w.heap r).notAfter → Lasts t name subject altNames w) :
    Continues crypto expiry t name subject altNames w
      (m.proceed crypto (JsonStore.asStore json) answers supplier name subject altNames r w) := by
  unfold Manager.proceed
  split
  · exact obtain_continues json m name ordinary stocked
  · rw [genuine.plain]
    refine ⟨stocked,fun _ _ _ lasts => lasts,fun key returned beyond => answer ?_⟩
    cases parsed : (w.heap r).keyPair crypto with
    | error message => simp [parsed,Outcome.ofExcept] at returned
    | ok key' =>
      obtain rfl : key' = key := by simpa [parsed,Outcome.ofExcept] using returned
      exact genuine.expiry_eq parsed ▸ beyond

theorem getCertificate_continues (ordinary : Ordinary crypto expiry t subject altNames answers)
    (resolved : m.supplier preferredSupplier = .ok (supplier,name)) (stocked : Stocked crypto expiry w) :
    Continues crypto expiry t name subject altNames w
      (m.getCertificate crypto (JsonStore.asStore json) answers preferredSupplier subject altNames w) := by
  have locked : Stocked crypto expiry (w.call (.lockCertificate subject altNames)) :=
    ⟨⟨stocked.distinct,stocked.allocated⟩,stocked.genuine⟩
  have body : Continues crypto expiry t name subject altNames w
      (m.getLocked crypto (JsonStore.asStore json) answers supplier name subject altNames
        (w.call (.lockCertificate subject altNames))) := by
    rw [Manager.getLocked,lookup_json,World.heap_call,World.store_call]
    cases found : w.store.getCertificate w.heap name subject altNames with
    | none =>
      have rest := obtain_continues json m name ordinary locked
      exact ⟨rest.stocked,rest.carries,rest.lasts⟩
    | some r =>
      have member := ((getCertificate_eq_some_iff stocked.distinct).mp found).1
      obtain ⟨stocked',carries,genuine,notAfter⟩ :=
        refresh_continues json ordinary.early locked member
      have rest := proceed_continues json m ordinary supplier stocked' genuine
        fun beyond => carries name subject altNames ⟨r,found,notAfter ▸ beyond⟩
      exact ⟨rest.stocked,Carries.trans carries rest.carries,rest.lasts⟩
  rw [Manager.getCertificate,resolved]
  exact ⟨⟨⟨body.stocked.distinct,body.stocked.allocated⟩,body.stocked.genuine⟩,body.carries,body.lasts⟩

theorem getCertificate_result (ordinary : Ordinary crypto expiry t subject altNames answers)
    (stocked : Stocked crypto expiry w)
    (done : m.getCertificate crypto (JsonStore.asStore json) answers preferredSupplier subject altNames
      w = (w',out)) :
    Stocked crypto expiry w' ∧ Carries t w w' ∧
      ∀ key, out = .ok key → t < expiry key.pair → ∃ supplier name,
        m.supplier preferredSupplier = .ok (supplier,name) ∧ Lasts t name subject altNames w' := by
  cases resolved : m.supplier preferredSupplier with
  | error message =>
    rw [Manager.getCertificate,resolved] at done
    cases done
    exact ⟨stocked,fun _ _ _ lasts => lasts,fun key returned => by cases returned⟩
  | ok chosen =>
    obtain ⟨supplier,name⟩ := chosen
    have continues := done ▸ getCertificate_continues ordinary resolved stocked
    exact ⟨continues.stocked,continues.carries,fun key returned beyond =>
      ⟨supplier,name,rfl,continues.lasts key returned beyond⟩⟩

end Calls

def Answered (m : Manager) (t : Int) (w : World (JsonStore Ref)) (route : Route K) : Prop :=
  ∃ supplier name, m.supplier route.provider = .ok (supplier,name) ∧
    Lasts t name route.certificateNames.1 route.certificateNames.2 w

/-- Behind a certificate that lasts stands an answer of the store that lasts. -/
def Backed (m : Manager) (expiry : K → Int) (t : Int) (w : World (JsonStore Ref)) (route : Route K) :
    Prop :=
  ∀ key, route.certificate = some key → t < expiry key.pair → Answered m t w route

def ServedBeyond (expiry : K → Int) (t : Int) (route : Route K) : Prop :=
  route.certificateStatus.served = true ∧
    ∃ key, route.certificate = some key ∧ t < expiry key.pair

section Routes

variable {json : Json} {crypto : Crypto K} {expiry : K → Int} {t : Int} {m : Manager}
  {a : Answers Unit WriteFile × Unit} {route route' : Route K} {w w' : World (JsonStore Ref)}

theorem load_backed (stocked : Stocked crypto expiry w)
    (done : CertificateProvider.loadCertificate (some (m.asProvider crypto (JsonStore.asStore json)))
      a route w = (w',some route')) : w' = w ∧ Backed m expiry t w route' := by
  unfold CertificateProvider.loadCertificate at done
  dsimp only at done
  split at done
  next left cert renewal looked =>
    obtain ⟨same,found⟩ := existing_spec looked
    cases done
    refine ⟨same,fun key returned beyond => ?_⟩
    obtain rfl : cert = key := Option.some.inj returned
    obtain ⟨supplier,name,r,resolved,answer,parsed⟩ := found cert renewal rfl
    have member := ((getCertificate_eq_some_iff stocked.distinct).mp answer).1
    exact ⟨supplier,name,resolved,r,answer,(stocked.genuine r member).expiry_eq parsed ▸ beyond⟩
  next left _ _ looked =>
    cases done
    exact ⟨(existing_spec looked).1,fun key returned => by cases returned⟩
  next => cases done

theorem update_backed (stocked : Stocked crypto expiry w)
    (ordinary : Ordinary crypto expiry t route.certificateNames.1 route.certificateNames.2 a.1)
    (done : (m.asProvider crypto (JsonStore.asStore json)).updateCert a route w = (w',some route')) :
    Stocked crypto expiry w' ∧ Carries t w w' ∧ Backed m expiry t w' route' := by
  unfold CertificateProvider.updateCert at done
  dsimp only at done
  split at done
  next left cert called =>
    obtain ⟨stocked',carries,lasts⟩ := getCertificate_result ordinary stocked called
    cases done
    refine ⟨stocked',carries,fun key returned beyond => ?_⟩
    obtain rfl : cert = key := Option.some.inj returned
    exact lasts cert rfl beyond
  next left message called =>
    obtain ⟨stocked',carries,_⟩ := getCertificate_result ordinary stocked called
    obtain ⟨rfl,backed⟩ : _ ∧ Backed m expiry t left route' := load_backed stocked' done
    exact ⟨stocked',carries,backed⟩
  next => cases done

theorem load_serves (stocked : Stocked crypto expiry w)
    (done : CertificateProvider.loadCertificate (some (m.asProvider crypto (JsonStore.asStore json)))
      a route w = (w',some route')) (answered : Answered m a.1.now w route') :
    ServedBeyond expiry a.1.now route' := by
  obtain ⟨supplier,name,resolved,r,answer,beyond⟩ := answered
  have member := ((getCertificate_eq_some_iff stocked.distinct).mp answer).1
  have genuine := stocked.genuine r member
  unfold CertificateProvider.loadCertificate at done
  dsimp only [Manager.asProvider] at done
  have found (p : route'.provider = route.provider)
      (names : route'.certificateNames = route.certificateNames) :
      ∃ cert renewal, (m.getExistingCertificate crypto (JsonStore.asStore json) a.1.now a.2
        route.provider route.certificateNames.1 route.certificateNames.2 w).2 = .found cert renewal := by
    rw [← p,← names]
    exact (existing_found_iff () a.1.now _).mpr ⟨supplier,name,resolved,r,answer,genuine.usable beyond⟩
  split at done
  next left cert renewal looked =>
    cases done
    refine ⟨by cases renewal <;> rfl,cert,rfl,?_⟩
    obtain ⟨supplier',name',r',resolved',answer',parsed⟩ := (existing_spec looked).2 cert renewal rfl
    obtain ⟨rfl,rfl⟩ : supplier = supplier' ∧ name = name' := by
      simpa using resolved.symm.trans resolved'
    obtain rfl : r = r' := Option.some.inj (answer.symm.trans answer')
    exact genuine.expiry_eq parsed ▸ beyond
  next left _ _ looked =>
    cases done
    obtain ⟨cert,renewal,returned⟩ := found rfl rfl
    rw [looked] at returned
    cases returned
  next => cases done

end Routes

/-- The order of the alternative names does not matter to the store. -/
theorem Lasts.perm (distinct : Expiring.Distinct (keyOf w.heap) w.store.certificates)
    (perm : altNames.Perm altNames') (lasts : Lasts t name subject altNames w) :
    Lasts t name subject altNames' w := by
  obtain ⟨r,found,beyond⟩ := lasts
  refine ⟨r,?_,beyond⟩
  rw [getCertificate_eq_some_iff distinct] at found ⊢
  unfold Chosen at found ⊢
  rwa [(sortedCopy_eq_iff altNames altNames').mpr perm] at found

namespace Proxy

variable {json : Json} {crypto : Crypto K} {expiry : K → Int} {t : Int} {m : Manager}
  {toLower : String → String} {proxy after : Proxy (World (JsonStore Ref)) K}

def Ordinary (crypto : Crypto K) (expiry : K → Int) (t : Int) (proxy : Proxy (World (JsonStore Ref)) K) :
    ProxyCall (Answers Unit WriteFile × Unit) K → Prop
  | .setRoutes _ _ _ => True
  | .checkCertificates answers => ∀ i route, proxy.table.routes[i]? = some route →
      Centauri.Ordinary crypto expiry t route.certificateNames.1 route.certificateNames.2 (answers i).1

structure Continuous (m : Manager) (crypto : Crypto K) (expiry : K → Int) (t : Int)
    (proxy : Proxy (World (JsonStore Ref)) K) : Prop where
  stocked : Stocked crypto expiry proxy.state
  backed : ∀ route ∈ proxy.table.routes, Backed m expiry t proxy.state route

/-- Loading changes nothing outside the new routes. -/
theorem load_all {loaded : List (Route K)} {w w' : World (JsonStore Ref)} (stocked : Stocked crypto expiry w)
    (done : forRoutes (CertificateProvider.loadCertificate
      (some (m.asProvider crypto (JsonStore.asStore json)))) answers newRoutes w = (w',some loaded)) :
    w' = w ∧ (∀ route ∈ loaded, Backed m expiry t w route) ∧
      ((∀ i, (answers i).1.now = t) →
        ∀ route ∈ loaded, Answered m t w route → ServedBeyond expiry t route) := by
  have rule := forRoutes_rule (fun s => s = w) (fun _ route => Backed m expiry t w route ∧
      ((∀ i, (answers i).1.now = t) → Answered m t w route → ServedBeyond expiry t route))
    (fun i route s s' route' _ same here => by
      subst same
      obtain ⟨unchanged,backed⟩ := load_backed stocked here
      exact ⟨unchanged,⟨backed,fun at_t answered =>
        at_t i ▸ load_serves stocked here (at_t i ▸ answered)⟩,fun _ held => held⟩) rfl done
  exact ⟨rule.1,fun route member => (rule.2.1 route member).1,
    fun at_t route member => (rule.2.1 route member).2 at_t⟩

theorem call_continuous (continuous : Continuous m crypto expiry t proxy)
    (c : ProxyCall (Answers Unit WriteFile × Unit) K) (ordinary : Ordinary crypto expiry t proxy c)
    (lives : (proxy.call toLower (some (m.asProvider crypto (JsonStore.asStore json))) c).2 ≠ .crashed) :
    Continuous m crypto expiry t
      (proxy.call toLower (some (m.asProvider crypto (JsonStore.asStore json))) c).1 := by
  cases c with
  | setRoutes answers newRoutes fallback =>
    simp only [call,setRoutes] at lives ⊢
    split at lives
    · exact absurd rfl lives
    next w' loaded done =>
    obtain ⟨rfl,backed,_⟩ : _ ∧ (∀ route ∈ loaded, Backed m expiry t proxy.state route) ∧ _ :=
      load_all continuous.stocked done
    split
    · exact continuous
    · exact ⟨continuous.stocked,backed⟩
  | checkCertificates answers =>
    simp only [call,checkCertificates] at lives ⊢
    split at lives
    · exact absurd rfl lives
    next w' routes done =>
    have rule := forRoutes_rule (Stocked crypto expiry) (Backed m expiry t)
      (fun i route s s' route' at_i stocked here => by
        obtain ⟨stocked',carries,backed⟩ := update_backed stocked (ordinary i route at_i) here
        refine ⟨stocked',backed,fun other held key returned beyond => ?_⟩
        obtain ⟨supplier,name,resolved,lasts⟩ := held key returned beyond
        exact ⟨supplier,name,resolved,carries _ _ _ lasts⟩) continuous.stocked done
    exact ⟨rule.1,rule.2.1⟩

/-- A reload interrupts no domain: while it is served with a certificate that has not
expired, a new table with a route for the same provider and names serves it at once,
without any call to a supplier or change to the store. -/
theorem reload_continues (json : Json) (crypto : Crypto K) (expiry : K → Int) (toLower : String → String)
    (m : Manager) (w : JsonWorld) (t : Int)
    (distinct : Expiring.Distinct (keyOf w.heap) w.store.certificates)
    (genuine : ∀ q ∈ w.store.certificates, Genuine crypto expiry (w.heap q))
    (calls : List (ProxyCall (Answers Unit WriteFile × Unit) K))
    (before : Proxy (World (JsonStore Ref)) K)
    (run : ((machine toLower (some (m.asProvider crypto (JsonStore.asStore json)))).restrict
      (Ordinary crypto expiry t)).Run ⟨w.toWorld,.empty⟩ calls before)
    (domain : String) (route : Route K)
    (served : before.table.view.routeForDomain toLower domain = some route)
    (key : TlsCertificate K) (holds : route.certificate = some key) (unexpired : t < expiry key.pair)
    (answers : Nat → Answers Unit WriteFile × Unit) (clock : ∀ i, (answers i).1.now = t)
    (newRoutes : List (Route K)) (fallback : Option Nat) (after : Proxy (World (JsonStore Ref)) K)
    (installed : before.setRoutes toLower (some (m.asProvider crypto (JsonStore.asStore json))) answers
      newRoutes fallback = (after,.ok ()))
    (fresh : Route K) (found : after.table.view.routeFor toLower domain = some fresh)
    (provider : fresh.provider = route.provider)
    (subject : fresh.certificateNames.1 = route.certificateNames.1)
    (altNames : fresh.certificateNames.2.Perm route.certificateNames.2) :
    after.table.view.routeForDomain toLower domain = some fresh ∧
      (∃ key', fresh.certificate = some key' ∧ t < expiry key'.pair) ∧
      after.state = before.state := by
  have continuous : Continuous m crypto expiry t before := by
    refine run.invariant (Continuous m crypto expiry t) ?_
      ⟨⟨⟨distinct,w.allocated⟩,genuine⟩,by simp [RouteTable.empty]⟩
    rintro u c held ⟨lives,ordinary⟩
    exact call_continuous held c ordinary lives
  have direct : before.table.view.routeFor toLower domain = some route :=
    (Routes.routeForDomain_eq_some.mp served).1
  obtain ⟨supplier,name,resolved,lasts⟩ :=
    continuous.backed route (RouteTable.routeFor_mem direct) key holds unexpired
  have answered : Answered m t before.state fresh :=
    ⟨supplier,name,provider ▸ resolved,
      subject ▸ lasts.perm continuous.stocked.distinct altNames.symm⟩
  unfold setRoutes at installed
  split at installed
  · cases installed
  next w' loaded done =>
  split at installed
  · cases installed
  next domains updated =>
  obtain ⟨rfl,_,serves⟩ : _ ∧ (∀ route ∈ loaded, Backed m expiry t _ route) ∧ _ :=
    load_all continuous.stocked done
  cases installed
  obtain ⟨status,key',holds',unexpired'⟩ :=
    serves clock fresh (RouteTable.routeFor_mem found) answered
  refine ⟨?_,⟨key',holds',unexpired'⟩,rfl⟩
  rw [Routes.routeForDomain,found]
  simpa [CertificateStatus.served] using status

end Proxy

namespace Sample

theorem stored_genuine (ariNextUpdate ariRenewalTime : Int) :
    Genuine crypto (fun _ => leafNotAfter) (stored ariNextUpdate ariRenewalTime) :=
  ⟨⟨certPem,crypto_pair,rfl⟩,stored_requiresStaple ariNextUpdate ariRenewalTime⟩

def loadedRoute : Route String := route.setCertificate (some ⟨certPem,[]⟩) .expiringSoon

def serving : Proxy (World (JsonStore Ref)) String where
  state := world.toWorld
  table := ⟨[loadedRoute],
    Function.update (fun _ => none) "example.com" (some 0),none⟩

theorem reload_serving (proxy : Proxy (World (JsonStore Ref)) String) (state : proxy.state = world.toWorld) :
    proxy.setRoutes asciiLower (some (manager.asProvider crypto (JsonStore.asStore json)))
      (fun _ => (lastWeek,())) [route] none = (serving,.ok ()) := by
  have loaded : CertificateProvider.loadCertificate
      (some (manager.asProvider crypto (JsonStore.asStore json))) (lastWeek,()) route world.toWorld =
      (world.toWorld,some loadedRoute) := by
    have looked : manager.getExistingCertificate crypto (JsonStore.asStore json) lastWeek.now ()
        route.provider route.certificateNames.1 route.certificateNames.2 world.toWorld =
        (world.toWorld,.found ⟨certPem,[]⟩ true) := lastWeek_existing
    unfold CertificateProvider.loadCertificate
    dsimp only [Manager.asProvider]
    rw [looked]
    rfl
  have updated : RouteMap.update asciiLower [loadedRoute] =
      .ok (Function.update (fun _ => none) "example.com" (some 0)) := by
    have valid : isDomainName "example.com" = true := by decide
    have lower : asciiLower "example.com" = "example.com" := by decide
    have domains : loadedRoute.domains = ["example.com"] :=
      rfl
    simp [RouteMap.update,RouteMap.addRoutes,RouteMap.addDomains,domains,valid,lower]
  simp only [Proxy.setRoutes,forRoutes,state,loaded,updated]
  rfl

def servingAgain : Proxy (World (JsonStore Ref)) String :=
  (serving.setRoutes asciiLower (some (manager.asProvider crypto (JsonStore.asStore json)))
    (fun _ => (lastWeek,())) [route] none).1

theorem reload_keeps_serving :
    servingAgain.table.view.routeForDomain asciiLower "example.com" = some loadedRoute ∧
      (∃ key, loadedRoute.certificate = some key ∧ lastWeek.now < leafNotAfter) ∧
      servingAgain.state = serving.state := by
  have lower : asciiLower "example.com" = "example.com" := by decide
  have direct : serving.table.view.routeFor asciiLower "example.com" = some loadedRoute := by
    simp [Routes.routeFor,Routes.get,RouteTable.view,serving,lower]
  have served : serving.table.view.routeForDomain asciiLower "example.com" = some loadedRoute := by
    rw [Routes.routeForDomain,direct]
    rfl
  have first := reload_serving ⟨world.toWorld,.empty⟩ rfl
  have second := reload_serving serving rfl
  have found : servingAgain.table.view.routeFor asciiLower "example.com" = some loadedRoute := by
    rw [servingAgain,second]
    exact direct
  refine Proxy.reload_continues json crypto (fun _ => leafNotAfter) asciiLower manager world
    lastWeek.now (by decide) (fun _ _ => stored_genuine 0 0)
    [.setRoutes (fun _ => (lastWeek,())) [route] none] serving ?_ "example.com" loadedRoute served
    ⟨certPem,[]⟩ rfl (by decide) (fun _ => (lastWeek,())) (fun _ => rfl) [route] none servingAgain
    (Prod.ext rfl (by rw [second])) loadedRoute found rfl rfl (.refl _)
  -- The run is the first reload alone.
  refine Eq.subst (motive := Machine.Run _ _ _) (congrArg Prod.fst first) (.cons ⟨?_,trivial⟩ .nil)
  intro crashed
  have := (congrArg Prod.snd first).symm.trans crashed
  cases this

end Sample

end Centauri
