import Centauri.CertificatePaths
import Centauri.ProxyManager

/-! What a failed update leaves behind on the file store. Every step of
`GetCertificate` keeps a usable certificate where the fallback lookup finds it. -/
namespace Centauri

variable {K : Type}

/-- Some certificate is returned exactly when the stored one is usable. -/
theorem judge_usable_iff (crypto : Crypto K) (now : Int) (supplier : Supplier) (d : Details)
    (key : TlsCertificate K) :
    (∃ renewal, Manager.judge crypto now supplier d = .found key renewal) ↔
      Usable crypto now d ∧ d.keyPair crypto = .ok key := by
  simp only [Manager.judge_found_iff]
  constructor
  · rintro ⟨_,usable,parsed,_⟩
    exact ⟨usable,parsed⟩
  · rintro ⟨usable,parsed⟩
    by_cases stands : Manager.Stands crypto now supplier d
    · exact ⟨false,usable,parsed,iff_of_true rfl stands⟩
    · exact ⟨true,usable,parsed,iff_of_false (by decide) stands⟩

/-- ARI data has no bearing on whether a certificate can be served. -/
theorem Usable.withRenewalInfo {crypto : Crypto K} (usable : Usable crypto now d) (info : RenewalInfo) :
    Usable crypto now (d.withRenewalInfo info) :=
  ⟨usable.valid,usable.stapled,usable.parses⟩

theorem Usable.withProvider {crypto : Crypto K} (usable : Usable crypto now d) (provider : String) :
    Usable crypto now (d.withProvider provider) :=
  ⟨usable.valid,usable.stapled,usable.parses⟩

theorem Usable.withStaple {crypto : Crypto K} (usable : Usable crypto now d) (staple : Staple)
    (unexpired : now < staple.nextOcspUpdate) : Usable crypto now (d.withStaple staple) := by
  refine ⟨usable.valid,fun _ => ?_,?_⟩
  · rw [Details.hasStapleFor_iff]
    simpa [Details.withStaple] using unexpired
  · obtain ⟨key,parsed⟩ := usable.parses
    unfold Details.keyPair at parsed
    cases pair : crypto.x509KeyPair d.certificate d.privateKey with
    | error message => simp [pair] at parsed
    | ok chain =>
      exact ⟨⟨chain,staple.ocspResponse⟩,by simp [Details.keyPair,Details.withStaple,pair]⟩

/-- The choice depends on the entries only through their keys. -/
theorem selectCertificate_heap {heap heap' : Ref → Details} (provider subject : String)
    (altNames : List String) (legacy : Option Ref) (entries : List Ref)
    (same : ∀ r ∈ entries, keyOf heap' r = keyOf heap r) :
    selectCertificate heap' provider subject altNames legacy entries =
      selectCertificate heap provider subject altNames legacy entries := by
  induction entries generalizing legacy with
  | nil => rfl
  | cons r rest ih =>
    have here := same r List.mem_cons_self
    have later := fun legacy => ih legacy fun q member => same q (List.mem_cons_of_mem _ member)
    have provider' : (heap' r).provider = (heap r).provider := congrArg Prod.fst here
    have named : (heap' r).isFor subject altNames = (heap r).isFor subject altNames := by
      rw [Bool.eq_iff_iff]
      have exact' := keyOf_eq_iff heap' r (heap r).provider subject altNames
      rw [here,keyOf_eq_iff] at exact'
      simpa [provider'] using exact'.symm
    simp only [selectCertificate,provider',named,later]

/-- An entry is chosen for its own provider, or for want of one when it has none. -/
def Chosen (deref : ρ → Details) (name subject : String) (altNames : List String) (entries : List ρ) (r : ρ) : Prop :=
  keyOf deref r = (name,subject,sortedCopy altNames) ∨
    keyOf deref r = ("",subject,sortedCopy altNames) ∧
      ∀ q ∈ entries, keyOf deref q ≠ (name,subject,sortedCopy altNames)

theorem selectCertificate_eq_some_iff {deref : ρ → Details} {entries : List ρ}
    (distinct : Expiring.Distinct (keyOf deref) entries) :
    selectCertificate deref name subject altNames none entries = some r ↔
      r ∈ entries ∧ Chosen deref name subject altNames entries r := by
  rw [selectCertificate_distinct deref _ _ _ _ _ distinct]
  cases exact : Expiring.find (keyOf deref) (name,subject,sortedCopy altNames) entries with
  | some q =>
    obtain ⟨member,key⟩ := (Expiring.find_eq_some_iff distinct).mp exact
    change some q = some r ↔ _
    rw [Option.some.injEq]
    constructor
    · rintro rfl
      exact ⟨member,.inl key⟩
    · rintro ⟨member',same | ⟨_,none⟩⟩
      · exact distinct.eq member member' (key.trans same.symm)
      · exact absurd key (none q member)
  | none =>
    have absent : ∀ q ∈ entries, keyOf deref q ≠ (name,subject,sortedCopy altNames) := by
      intro q member same
      rw [(Expiring.find_eq_some_iff distinct).mpr ⟨member,same⟩] at exact
      cases exact
    have rest (o : Option ρ) : (none <|> o <|> none) = o := by cases o <;> rfl
    rw [rest,Expiring.find_eq_some_iff distinct]
    constructor
    · rintro ⟨member,key⟩
      exact ⟨member,.inr ⟨key,absent⟩⟩
    · rintro ⟨member,same | ⟨key,_⟩⟩
      · exact absurd same (absent r member)
      · exact ⟨member,key⟩

theorem getCertificate_eq_some_iff {heap : Ref → Details} {j : JsonStore Ref}
    (distinct : Expiring.Distinct (keyOf heap) j.certificates) :
    j.getCertificate heap name subject altNames = some r ↔
      r ∈ j.certificates ∧ Chosen heap name subject altNames j.certificates r :=
  selectCertificate_eq_some_iff distinct

structure Sound (w : World (JsonStore Ref)) : Prop where
  distinct : Expiring.Distinct (keyOf w.heap) w.store.certificates
  allocated : ∀ q ∈ w.store.certificates, q < w.fresh

structure Standing (crypto : Crypto K) (now : Int) (name subject : String) (altNames : List String)
    (w : World (JsonStore Ref)) (r : Ref) : Prop extends Sound w where
  found : w.store.getCertificate w.heap name subject altNames = some r
  usable : Usable crypto now (w.heap r)

section Steps

variable {json : Json} {crypto : Crypto K} {now : Int} {name subject : String} {altNames : List String}
  {w : World (JsonStore Ref)} {r : Ref}

theorem Standing.call (standing : Standing crypto now name subject altNames w r) (c : Call) :
    Standing crypto now name subject altNames (w.call c) r :=
  ⟨⟨standing.distinct,standing.allocated⟩,standing.found,standing.usable⟩

theorem keyOf_modify (f : Details → Details) (key : ∀ d, (f d).key = d.key) (r : Ref) (w : World (JsonStore Ref)) :
    keyOf (w.modify r f).heap = keyOf w.heap := by
  funext q
  by_cases same : q = r
  · subst same
    simp [keyOf,World.modify,key]
  · simp [keyOf,World.modify,same]

theorem Sound.modify (sound : Sound w) (f : Details → Details) (key : ∀ d, (f d).key = d.key) (r : Ref) :
    Sound (w.modify r f) :=
  ⟨keyOf_modify f key r w ▸ sound.distinct,sound.allocated⟩

/-- An entry may be rewritten in place, under the same key. -/
theorem getCertificate_modify (f : Details → Details) (key : ∀ d, (f d).key = d.key) (r : Ref)
    (w : World (JsonStore Ref)) : (w.modify r f).store.getCertificate (w.modify r f).heap name subject altNames =
      w.store.getCertificate w.heap name subject altNames :=
  selectCertificate_heap _ _ _ _ _ fun q _ => congrFun (keyOf_modify f key r w) q

theorem Standing.modify (standing : Standing crypto now name subject altNames w r)
    (f : Details → Details) (key : ∀ d, (f d).key = d.key)
    (usable : Usable crypto now (f (w.heap r))) :
    Standing crypto now name subject altNames (w.modify r f) r := by
  have self : (w.modify r f).heap r = f (w.heap r) := Function.update_self ..
  refine ⟨standing.toSound.modify f key r,?_,self ▸ usable⟩
  rw [getCertificate_modify f key]
  exact standing.found

theorem certificates_save (how : WriteFile) (r : Ref) (w : World (JsonStore Ref)) :
    (Manager.save (JsonStore.asStore json) now how r w).1.store.certificates =
      Expiring.save (keyOf w.heap) (expiryOf w.heap) w.store.certificates (now,r) :=
  JsonStore.saveCertificate_certificates json w.heap now how r w.store

theorem Sound.saved (sound : Sound w) (how : WriteFile) (fresh : r < w.fresh) :
    Sound (Manager.save (JsonStore.asStore json) now how r w).1 := by
  refine ⟨?_,fun q member => ?_⟩
  · rw [certificates_save]
    exact Expiring.save_distinct sound.distinct
  · rw [certificates_save] at member
    rcases Expiring.mem_of_mem_save member with rfl | old
    · exact fresh
    · exact sound.allocated q old

/-- What is saved and has not expired is found, whether the file can be written or not. -/
theorem Sound.found_save (sound : Sound w) (how : WriteFile) (fresh : r < w.fresh)
    (chosen : Chosen w.heap name subject altNames w.store.certificates r)
    (alive : now < (w.heap r).notAfter) :
    (Manager.save (JsonStore.asStore json) now how r w).1.store.getCertificate w.heap name subject altNames =
      some r := by
  have members : ∀ q ∈ (Manager.save (JsonStore.asStore json) now how r w).1.store.certificates,
      q = r ∨ q ∈ w.store.certificates ∧ keyOf w.heap q ≠ keyOf w.heap r := by
    intro q member
    rw [certificates_save,Expiring.mem_save sound.distinct] at member
    exact member.1
  refine (getCertificate_eq_some_iff (sound.saved how fresh).distinct).mpr ⟨?_,?_⟩
  · rw [certificates_save,Expiring.mem_save sound.distinct]
    exact ⟨.inl rfl,alive⟩
  · rcases chosen with exact | ⟨legacy,absent⟩
    · exact .inl exact
    · by_cases same : keyOf w.heap r = (name,subject,sortedCopy altNames)
      · exact .inl same
      · refine .inr ⟨legacy,fun q member => ?_⟩
        rcases members q member with rfl | ⟨old,_⟩
        · exact same
        · exact absent q old

/-- Saving makes a usable certificate the one a lookup finds. -/
theorem Sound.save (sound : Sound w) (how : WriteFile) (fresh : r < w.fresh)
    (chosen : Chosen w.heap name subject altNames w.store.certificates r)
    (usable : Usable crypto now (w.heap r)) :
    Standing crypto now name subject altNames
      (Manager.save (JsonStore.asStore json) now how r w).1 r :=
  ⟨sound.saved how fresh,sound.found_save how fresh chosen (by simpa using usable.valid),usable⟩

theorem Standing.save (standing : Standing crypto now name subject altNames w r) (how : WriteFile) :
    Standing crypto now name subject altNames
      (Manager.save (JsonStore.asStore json) now how r w).1 r := by
  obtain ⟨member,chosen⟩ := (getCertificate_eq_some_iff standing.distinct).mp standing.found
  exact standing.toSound.save how (standing.allocated r member) chosen standing.usable

/-- Objects beyond the store's own may come and change. -/
theorem Sound.beyond {w' : World (JsonStore Ref)} (sound : Sound w) (store : w'.store = w.store)
    (grown : w.fresh ≤ w'.fresh) (same : ∀ q < w.fresh, w'.heap q = w.heap q) : Sound w' := by
  have keys : w.store.certificates.map (keyOf w'.heap) = w.store.certificates.map (keyOf w.heap) :=
    List.map_congr_left fun q member => congrArg Details.key (same q (sound.allocated q member))
  constructor
  · rw [Expiring.Distinct,store,keys]
    exact sound.distinct
  · intro q member
    rw [store] at member
    exact Nat.lt_of_lt_of_le (sound.allocated q member) grown

end Steps

def Details.issuedAs (name : String) (answer : Except String RenewalInfo) (d : Details) : Details :=
  match answer with
  | .error _ => d.withProvider name
  | .ok info => (d.withProvider name).withRenewalInfo info

theorem Usable.issuedAs {crypto : Crypto K} (usable : Usable crypto now d) (name : String)
    (answer : Except String RenewalInfo) : Usable crypto now (d.issuedAs name answer) := by
  cases answer with
  | error message => exact usable.withProvider name
  | ok info => exact (usable.withProvider name).withRenewalInfo info

theorem Details.issuedAs_key (name : String) (answer : Except String RenewalInfo) (d : Details) :
    (d.issuedAs name answer).key = (name,d.subject,sortedCopy d.altNames) := by
  cases answer <;> rfl

namespace Manager

variable {σ ι ω : Type} (store : Store σ ι ω)

/-- The issued certificate is a new object; nothing older changes. -/
theorem issue_spec (now : Int) (answer : Except String RenewalInfo) (name : String) (d : Details)
    (w : World σ) (after : World σ) (issued : after = updateRenewalInfo store now answer none w.fresh
      ((w.alloc d).modify w.fresh (Details.withProvider name))) :
    after.store = w.store ∧ after.fresh = w.fresh + 1 ∧ after.heap w.fresh = d.issuedAs name answer ∧
      ∀ q < w.fresh, after.heap q = w.heap q := by
  subst issued
  have apart : ∀ q < w.fresh, q ≠ w.fresh := fun q => Nat.ne_of_lt
  cases answer with
  | error message =>
    refine ⟨rfl,rfl,?_,fun q older => ?_⟩
    · simp [updateRenewalInfo,World.call,World.modify,World.alloc,Details.issuedAs]
    · simp [updateRenewalInfo,World.call,World.modify,World.alloc,apart q older]
  | ok info =>
    refine ⟨rfl,rfl,?_,fun q older => ?_⟩
    · simp [updateRenewalInfo,World.call,World.modify,World.alloc,Details.issuedAs]
    · simp [updateRenewalInfo,World.call,World.modify,World.alloc,apart q older]

end Manager

/-- What the supplier hands over is unexpired, for the names asked for, a key pair, and stapled if
it has to be. -/
structure Delivers (crypto : Crypto K) (answers : Answers ι ω) (subject : String)
    (altNames : List String) : Prop where
  issued : ∀ d, answers.issued = .ok d → Usable crypto answers.now d ∧ d.isFor subject altNames = true
  staple : ∀ s, answers.staple = .ok s → answers.now < s.nextOcspUpdate

/-- The call returned a certificate, or an error that leaves one to fall back on. -/
def Kept (crypto : Crypto K) (now : Int) (name subject : String) (altNames : List String)
    (result : World (JsonStore Ref) × Outcome (TlsCertificate K)) : Prop :=
  (∃ key, result.2 = .ok key) ∨
    (∃ message, result.2 = .err message) ∧ ∃ r, Standing crypto now name subject altNames result.1 r

section Calls

variable {json : Json} {crypto : Crypto K} {m : Manager} {answers : Answers Unit WriteFile}
  {name subject : String} {altNames : List String} {w : World (JsonStore Ref)} {r : Ref}

theorem deliver_kept (how : WriteFile) (label : String)
    (standing : Standing crypto now name subject altNames
      (Manager.save (JsonStore.asStore json) now how r w).1 r) :
    Kept crypto now name subject altNames
      (Manager.deliver crypto (JsonStore.asStore json) now how label r w) := by
  unfold Manager.deliver
  split
  next saved message failed =>
    rw [failed] at standing
    exact .inr ⟨⟨_,rfl⟩,r,standing⟩
  next saved done =>
    rw [done] at standing
    obtain ⟨key,parsed⟩ := standing.usable.parses
    exact .inl ⟨key,by rw [parsed]; rfl⟩

theorem obtain_kept (delivers : Delivers crypto answers subject altNames)
    (standing : Standing crypto answers.now name subject altNames w r) :
    Kept crypto answers.now name subject altNames
      (m.obtain crypto (JsonStore.asStore json) answers name subject altNames w) := by
  unfold Manager.obtain
  cases issued : answers.issued with
  | error message => exact .inr ⟨⟨_,rfl⟩,r,standing.call _⟩
  | ok d =>
    obtain ⟨usable,named⟩ := delivers.issued d issued
    obtain ⟨same,grown,contents,older⟩ := Manager.issue_spec (JsonStore.asStore json) answers.now
      answers.issuedRenewalInfo name d (w.call (.getCertificate subject altNames m.shouldStaple)) _ rfl
    apply deliver_kept
    refine Sound.save (standing.toSound.beyond same (grown ▸ Nat.le_succ _) older) _
      (grown ▸ Nat.lt_succ_self _) (.inl ?_) (contents ▸ usable.issuedAs name _)
    obtain ⟨rfl,perm⟩ := (Details.isFor_iff ..).mp named
    rw [keyOf,contents,Details.issuedAs_key,(sortedCopy_eq_iff _ _).mpr perm]

theorem staple_kept (delivers : Delivers crypto answers subject altNames)
    (standing : Standing crypto answers.now name subject altNames w r) :
    Kept crypto answers.now name subject altNames
      (Manager.staple crypto (JsonStore.asStore json) answers r w) := by
  unfold Manager.staple
  cases stapled : answers.staple with
  | error message => exact .inr ⟨⟨_,rfl⟩,r,standing.call _⟩
  | ok s =>
    apply deliver_kept
    refine Standing.save ((standing.call _).modify (Details.withStaple s) (fun _ => rfl) ?_) _
    exact standing.usable.withStaple s (delivers.staple s stapled)

theorem refresh_standing (standing : Standing crypto answers.now name subject altNames w r) :
    Standing crypto answers.now name subject altNames
      (Manager.refresh (JsonStore.asStore json) answers r w) r := by
  unfold Manager.refresh
  split
  · unfold Manager.updateRenewalInfo
    cases answers.renewalInfo with
    | error message => exact standing.call _
    | ok info =>
      exact ((standing.call _).modify (Details.withRenewalInfo info) (fun _ => rfl)
        (standing.usable.withRenewalInfo info)).save _
  · exact standing

theorem proceed_kept (delivers : Delivers crypto answers subject altNames) (supplier : Supplier)
    (standing : Standing crypto answers.now name subject altNames w r) :
    Kept crypto answers.now name subject altNames
      (m.proceed crypto (JsonStore.asStore json) answers supplier name subject altNames r w) := by
  obtain ⟨key,parsed⟩ := standing.usable.parses
  unfold Manager.proceed
  split
  · exact obtain_kept delivers standing
  · obtain ⟨must,required⟩ := Option.isSome_iff_exists.mp (Details.requiresStaple_isSome parsed)
    rw [required]
    dsimp only
    split
    · exact staple_kept delivers standing
    · exact .inl ⟨key,by rw [parsed]; rfl⟩

/-- The file store hands out pointers to its own entries. -/
theorem lookup_json (how : Unit) : Manager.lookup (JsonStore.asStore json) how name subject altNames w =
    (w,w.store.getCertificate w.heap name subject altNames) := by
  cases found : w.store.getCertificate w.heap name subject altNames <;>
    simp [Manager.lookup,JsonStore.asStore,found,World.take]

theorem getCertificate_kept (delivers : Delivers crypto answers subject altNames)
    (resolved : m.supplier preferredSupplier = .ok (supplier,name))
    (standing : Standing crypto answers.now name subject altNames w r) :
    Kept crypto answers.now name subject altNames
      (m.getCertificate crypto (JsonStore.asStore json) answers preferredSupplier subject altNames w) := by
  have locked := standing.call (.lockCertificate subject altNames)
  have kept : Kept crypto answers.now name subject altNames
      (m.getLocked crypto (JsonStore.asStore json) answers supplier name subject altNames
        (w.call (.lockCertificate subject altNames))) := by
    rw [Manager.getLocked,lookup_json,locked.found]
    exact proceed_kept delivers supplier (refresh_standing locked)
  rw [Manager.getCertificate,resolved]
  rcases kept with returned | ⟨failed,q,left⟩
  · exact .inl returned
  · exact .inr ⟨failed,q,left.call _⟩

/-- `GetExistingCertificate` changes nothing, and what it returns is the store's answer. -/
theorem existing_spec (done : m.getExistingCertificate crypto (JsonStore.asStore json) now how
      preferredSupplier subject altNames w = (w',out)) :
    w' = w ∧ ∀ key renewal, out = .found key renewal → ∃ supplier name r,
      m.supplier preferredSupplier = .ok (supplier,name) ∧
      w.store.getCertificate w.heap name subject altNames = some r ∧
      (w.heap r).keyPair crypto = .ok key := by
  unfold Manager.getExistingCertificate at done
  cases resolved : m.supplier preferredSupplier with
  | error message =>
    rw [resolved] at done
    cases done
    exact ⟨rfl,fun key renewal returned => by cases returned⟩
  | ok chosen =>
    obtain ⟨supplier,name⟩ := chosen
    cases found : w.store.getCertificate w.heap name subject altNames with
    | none =>
      simp only [resolved,lookup_json,found] at done
      cases done
      exact ⟨rfl,fun key renewal returned => by cases returned⟩
    | some r =>
      simp only [resolved,lookup_json,found] at done
      cases done
      refine ⟨rfl,fun key renewal returned => ⟨supplier,name,r,rfl,found,?_⟩⟩
      exact ((judge_usable_iff crypto now supplier (w.heap r) key).mp ⟨renewal,returned⟩).2

/-- `GetExistingCertificate` succeeds exactly when a lookup finds a usable certificate. -/
theorem existing_found_iff (how : Unit) (now : Int) (preferredSupplier : String) :
    (∃ cert renewal, (m.getExistingCertificate crypto (JsonStore.asStore json) now how
      preferredSupplier subject altNames w).2 = .found cert renewal) ↔
    ∃ supplier name, m.supplier preferredSupplier = .ok (supplier,name) ∧
      ∃ r, w.store.getCertificate w.heap name subject altNames = some r ∧
        Usable crypto now (w.heap r) := by
  unfold Manager.getExistingCertificate
  cases resolved : m.supplier preferredSupplier with
  | error message => simp
  | ok chosen =>
    obtain ⟨supplier,name⟩ := chosen
    simp only [Except.ok.injEq,Prod.mk.injEq,and_assoc,exists_and_left,exists_eq_left']
    cases found : w.store.getCertificate w.heap name subject altNames with
    | none => simp [lookup_json,found]
    | some r =>
      have judged (key : TlsCertificate K) := judge_usable_iff crypto now supplier (w.heap r) key
      simp only [lookup_json,found,Option.some.injEq,exists_eq_left',judged]
      constructor
      · rintro ⟨key,usable,_⟩
        exact usable
      · intro usable
        obtain ⟨key,parsed⟩ := usable.parses
        exact ⟨key,usable,parsed⟩

end Calls

structure JsonWorld extends World (JsonStore Ref) where
  allocated : ∀ q ∈ store.certificates, q < fresh

theorem load_works {json : Json} {crypto : Crypto K} {m : Manager} {answers : Answers Unit WriteFile}
    {w : World (JsonStore Ref)} (route : Route K) (found : ∃ cert renewal, (m.getExistingCertificate crypto
      (JsonStore.asStore json) answers.now () route.provider route.certificateNames.1
      route.certificateNames.2 w).2 = .found cert renewal) :
    ∃ after, (CertificateProvider.loadCertificate (some (m.asProvider crypto (JsonStore.asStore json))) (answers,()) route w).2 =
      some after ∧ after.Works := by
  obtain ⟨cert,renewal,found⟩ := found
  unfold CertificateProvider.loadCertificate
  dsimp only [Manager.asProvider]
  split
  next after cert' renewal' same =>
    refine ⟨_,rfl,by simp [Route.setCertificate],?_⟩
    cases renewal' <;> rfl
  next same => simp [same] at found
  next same => simp [same] at found

/-- A failed renewal takes no working route down: whatever fails on the way, a route
whose certificate can be loaded still has one after the update. -/
theorem update_keeps_route (json : Json) (crypto : Crypto K) (m : Manager) (w : JsonWorld)
    (route : Route K) (answers : Answers Unit WriteFile)
    (distinct : Expiring.Distinct (keyOf w.heap) w.store.certificates)
    (works : ∃ cert renewal, (m.getExistingCertificate crypto (JsonStore.asStore json) answers.now ()
      route.provider route.certificateNames.1 route.certificateNames.2 w.toWorld).2 =
        .found cert renewal)
    (delivers : Delivers crypto answers route.certificateNames.1 route.certificateNames.2) :
    ∃ after, ((m.asProvider crypto (JsonStore.asStore json)).updateCert (answers,()) route
      w.toWorld).2 = some after ∧ after.Works := by
  obtain ⟨supplier,name,resolved,r,found,usable⟩ := (existing_found_iff () answers.now _).mp works
  have standing : Standing crypto answers.now name route.certificateNames.1 route.certificateNames.2
      w.toWorld r := ⟨⟨distinct,w.allocated⟩,found,usable⟩
  have kept : Kept crypto answers.now name route.certificateNames.1 route.certificateNames.2
      (m.getCertificate crypto (JsonStore.asStore json) answers route.provider
        route.certificateNames.1 route.certificateNames.2 w.toWorld) :=
    getCertificate_kept delivers resolved standing
  unfold CertificateProvider.updateCert
  dsimp only [Manager.asProvider]
  split
  next same => exact ⟨_,rfl,by simp [Route.setCertificate],rfl⟩
  next world message same =>
    rw [same] at kept
    rcases kept with ⟨key,returned⟩ | ⟨_,q,left⟩
    · cases returned
    · exact load_works route
        ((existing_found_iff () answers.now _).mpr ⟨supplier,name,resolved,q,left.found,left.usable⟩)
  next same =>
    rw [same] at kept
    rcases kept with ⟨key,returned⟩ | ⟨⟨message,failed⟩,_⟩
    · cases returned
    · cases failed

namespace Sample

theorem stored_usable (ariNextUpdate ariRenewalTime : Int) (early : now < leafNotAfter) :
    Usable crypto now (stored ariNextUpdate ariRenewalTime) := by
  refine ⟨?_,fun must => ?_,_,stored_keyPair ariNextUpdate ariRenewalTime⟩
  · rw [Details.validFor_iff]
    simpa [stored] using early
  · have := (stored_requiresStaple ariNextUpdate ariRenewalTime).symm.trans must
    cases this

def route : Route String := plainRoute .notChecked

def world : JsonWorld :=
  { heap := fun _ => stored 0 0,fresh := 1,store := ⟨[0],none⟩,calls := [],allocated := by decide }

def lastWeek : Answers Unit WriteFile := Manager.unreachable (leafNotAfter - 168 * hour)

theorem lastWeek_existing :
    manager.getExistingCertificate crypto (JsonStore.asStore json) lastWeek.now () "" "example.com" []
      world.toWorld = (world.toWorld,.found ⟨certPem,[]⟩ true) := by
  have found : world.store.getCertificate world.heap "lego" "example.com" [] = some 0 := by
    simp [JsonStore.getCertificate,selectCertificate,world,stored,Details.isFor,sortedCopy]
  have judged (supplier : Supplier) (month : supplier.minCertificateValidity = 24 * 30 * hour) :
      Manager.judge crypto lastWeek.now supplier (world.heap 0) = .found ⟨certPem,[]⟩ true := by
    rw [Manager.judge_found_iff]
    refine ⟨stored_usable 0 0 (by decide),stored_keyPair 0 0,iff_of_false (by decide) ?_⟩
    rintro ⟨notDue,_⟩
    rw [month] at notDue
    revert notDue
    decide
  simp only [Manager.getExistingCertificate,Manager.sample_supplier,lookup_json,found]
  rw [judged _ rfl]

/-- The ARI server is down, a certificate is issued, and the disk is full. -/
def diskFull : Answers Unit WriteFile :=
  { now := leafNotAfter - 168 * hour,lookup := (),renewalInfo := .error "timeout"
    saveRenewalInfo := .ok,issued := .ok (stored 0 0),issuedRenewalInfo := .error "timeout"
    saveIssued := .failed "no space left on device" none,staple := .error "timeout"
    saveStaple := .ok }

theorem disk_full_keeps_route : ∃ after,
    ((manager.asProvider crypto (JsonStore.asStore json)).updateCert (diskFull,()) route
      world.toWorld).2 = some after ∧ after.Works := by
  have usable : Usable crypto diskFull.now (stored 0 0) := stored_usable 0 0 (by decide)
  have found : world.store.getCertificate world.heap "lego" "example.com" [] = some 0 := by
    simp [JsonStore.getCertificate,selectCertificate,world,stored,Details.isFor,sortedCopy]
  refine update_keeps_route json crypto manager world route diskFull (by decide)
    ((existing_found_iff () _ _).mpr ⟨_,_,Manager.sample_supplier,0,found,usable⟩)
    ⟨fun d issued => ?_,fun s stapled => by cases stapled⟩
  obtain rfl : stored 0 0 = d := Except.ok.inj issued
  exact ⟨usable,(Details.isFor_iff ..).mpr ⟨rfl,.refl _⟩⟩

def twoCrypto : Crypto String where
  x509KeyPair certificate privateKey :=
    if certificate ∈ ["plain","must"] ∧ privateKey = "key" then .ok certificate
    else .error "tls: failed to find any PEM data in certificate input"
  extensions certificate :=
    if certificate = "must" then some (.ok ["1.3.6.1.5.5.7.1.24"]) else some (.ok [])
  pair_decodes := by
    intro certificate privateKey pair _
    split <;> rfl

def textual (certificate : String) (notAfter : Int) : Details :=
  { stored 0 0 with certificate := certificate,privateKey := "key",notAfter := notAfter }

def plainWorld : JsonWorld :=
  { heap := fun _ => textual "plain" (168 * hour),fresh := 1,store := ⟨[0],none⟩,calls := [],allocated := by decide }

/-- A certificate that must be stapled is issued without a staple, and the disk is full. -/
def unstapled : Answers Unit WriteFile :=
  { diskFull with now := 0,issued := .ok (textual "must" (2160 * hour)) }

/-- The supplier keeps its promise, and the route that worked is withdrawn. -/
theorem unstapled_withdraws :
    Expiring.Distinct (keyOf plainWorld.heap) plainWorld.store.certificates ∧
    (∃ cert renewal, (manager.getExistingCertificate twoCrypto (JsonStore.asStore json) unstapled.now () route.provider
      route.certificateNames.1 route.certificateNames.2 plainWorld.toWorld).2 = .found cert renewal) ∧
    (∀ d, unstapled.issued = .ok d → d.validFor unstapled.now 0 = true ∧
      d.isFor route.certificateNames.1 route.certificateNames.2 = true ∧ ∃ key, d.keyPair twoCrypto = .ok key) ∧
    (∀ s, unstapled.staple = .ok s → unstapled.now < s.nextOcspUpdate) ∧
    ∃ after, ((manager.asProvider twoCrypto (JsonStore.asStore json)).updateCert (unstapled,()) route
      plainWorld.toWorld).2 = some after ∧ after.certificate = none ∧ after.certificateStatus = .missing := by
  refine ⟨by decide,⟨⟨"plain",[]⟩,true,by decide +kernel⟩,fun d issued => ?_,fun s stapled => (by cases stapled),?_⟩
  · obtain rfl : textual "must" (2160 * hour) = d := Except.ok.inj issued
    exact ⟨by decide,by decide +kernel,⟨"must",[]⟩,rfl⟩
  · exact ⟨_,rfl,by decide +kernel,by decide +kernel⟩

end Sample

end Centauri
