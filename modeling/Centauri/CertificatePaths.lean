import Centauri.CertificateManager

/-! The two ways to a stored certificate: `GetCertificate`, which may renew it, and
`GetExistingCertificate`, which only judges it. They consult different predicates,
and differ on a certificate that has expired while its renewal time is still ahead. -/
namespace Centauri

def Call.supplies : Call → Bool
  | .getCertificate _ _ _ | .updateStaple _ => true
  | _ => false

def Found.read (heap : Ref → Details) : Found → Details
  | .own cert => heap cert
  | .copy d => d

variable {σ ι ω K : Type}

/-- Neither expired nor in need of a staple that it lacks, and made of a key pair. -/
structure Usable (crypto : Crypto K) (now : Int) (d : Details) : Prop where
  valid : d.validFor now 0 = true
  stapled : d.requiresStaple crypto = some true → d.hasStapleFor now 0 = true
  parses : ∃ key, d.keyPair crypto = .ok key

def World.supplied (w : World σ) : List Call := w.calls.filter Call.supplies

namespace World

@[simp] theorem supplied_call (c : Call) (w : World σ) :
    (w.call c).supplied = w.supplied ++ if c.supplies then [c] else [] := by
  cases supplies : c.supplies <;> simp [supplied,call,supplies]

@[simp] theorem supplied_alloc (d : Details) (w : World σ) : (w.alloc d).supplied = w.supplied := rfl

@[simp] theorem supplied_modify (cert : Ref) (f : Details → Details) (w : World σ) :
    (w.modify cert f).supplied = w.supplied := rfl

@[simp] theorem heap_call (c : Call) (w : World σ) : (w.call c).heap = w.heap := rfl

@[simp] theorem store_call (c : Call) (w : World σ) : (w.call c).store = w.store := rfl

/-- One object changes, the others stay. -/
theorem heap_modify_cases (r : Ref) (f : Details → Details) (w : World σ) (q : Ref) :
    (w.modify r f).heap q = w.heap q ∨ (w.modify r f).heap q = f (w.heap q) := by
  by_cases same : q = r
  · subst same
    exact .inr (Function.update_self ..)
  · exact .inl (Function.update_of_ne same ..)

/-- Whether shared or copied, the pointer taken leads to the certificate found. -/
theorem take_some (w : World σ) (found : Found) : ∃ cert,
    (w.take (some found)).2 = some cert ∧ (w.take (some found)).1.heap cert = found.read w.heap ∧
    (w.take (some found)).1.supplied = w.supplied := by
  cases found with
  | own cert => exact ⟨cert,rfl,rfl,rfl⟩
  | copy d => exact ⟨w.fresh,rfl,Function.update_self ..,rfl⟩

end World

namespace Manager

variable {crypto : Crypto K} {store : Store σ ι ω}

@[simp] theorem supplied_save (now : Int) (how : ω) (cert : Ref) (w : World σ) :
    (save store now how cert w).1.supplied = w.supplied := rfl

@[simp] theorem heap_save (now : Int) (how : ω) (cert : Ref) (w : World σ) :
    (save store now how cert w).1.heap = w.heap := rfl

@[simp] theorem supplied_updateRenewalInfo (now : Int) (answer : Except String RenewalInfo)
    (saving : Option ω) (cert : Ref) (w : World σ) :
    (updateRenewalInfo store now answer saving cert w).supplied = w.supplied := by
  unfold updateRenewalInfo
  cases answer with
  | error message => simp [Call.supplies]
  | ok info => cases saving <;> simp [Call.supplies]

@[simp] theorem supplied_deliver (now : Int) (how : ω) (subject : String) (cert : Ref) (w : World σ) :
    (deliver crypto store now how subject cert w).1.supplied = w.supplied := by
  have unchanged : (save store now how cert w).1.supplied = w.supplied := rfl
  unfold deliver
  split <;> simp_all

theorem supplied_obtain (m : Manager) (answers : Answers ι ω) (supplierName subject : String)
    (altNames : List String) (w : World σ) :
    (m.obtain crypto store answers supplierName subject altNames w).1.supplied =
      w.supplied ++ [.getCertificate subject altNames m.shouldStaple] := by
  unfold obtain
  cases answers.issued <;> simp [Call.supplies]

theorem supplied_staple (answers : Answers ι ω) (cert : Ref) (w : World σ) :
    (staple crypto store answers cert w).1.supplied = w.supplied ++ [.updateStaple cert] := by
  unfold staple
  cases answers.staple <;> simp [Call.supplies]

/-- The certificate stands as it is: not due, and stapled if it must be. -/
structure Stands (crypto : Crypto K) (now : Int) (supplier : Supplier) (d : Details) : Prop where
  notDue : d.shouldRenew now supplier.minCertificateValidity = false
  stapled : d.requiresStaple crypto = some true →
    d.hasStapleFor now supplier.minStapleValidity = true

/-- `GetCertificate` hands out the stored certificate without asking the supplier for
a new one or for a staple. -/
def ReturnsStored (crypto : Crypto K) (store : Store σ ι ω) (m : Manager) (answers : Answers ι ω)
    (preferredSupplier subject : String) (altNames : List String) (w : World σ) (stored : Details) :
    Prop :=
  ∃ key, stored.keyPair crypto = .ok key ∧
    (m.getCertificate crypto store answers preferredSupplier subject altNames w).2 = .ok key ∧
    (m.getCertificate crypto store answers preferredSupplier subject altNames w).1.supplied = w.supplied

def ExistingGood (crypto : Crypto K) (store : Store σ ι ω) (m : Manager) (now : Int) (how : ι)
    (preferredSupplier subject : String) (altNames : List String) (w : World σ) (stored : Details) :
    Prop :=
  ∃ key, stored.keyPair crypto = .ok key ∧
    (m.getExistingCertificate crypto store now how preferredSupplier subject altNames w).2 =
      .found key false

section Stored

variable (crypto : Crypto K) (store : Store σ ι ω) {m : Manager} {answers : Answers ι ω}
  {supplier : Supplier} {w : World σ} {found : Found}

/-- The supplier is left alone exactly when the certificate stands and parses. -/
theorem proceed_quiet_iff (m : Manager) (answers : Answers ι ω) (supplier : Supplier)
    (supplierName subject : String) (altNames : List String) (cert : Ref) (w : World σ)
    (key : TlsCertificate K) :
    (m.proceed crypto store answers supplier supplierName subject altNames cert w).2 = .ok key ∧
      (m.proceed crypto store answers supplier supplierName subject altNames cert w).1.supplied =
        w.supplied ↔
    Stands crypto answers.now supplier (w.heap cert) ∧ (w.heap cert).keyPair crypto = .ok key := by
  unfold proceed
  cases due : (w.heap cert).shouldRenew answers.now supplier.minCertificateValidity with
  | true =>
    rw [if_pos rfl,supplied_obtain]
    constructor
    · rintro ⟨_,quiet⟩
      simp at quiet
    · rintro ⟨stands,_⟩
      rw [stands.notDue] at due
      cases due
  | false =>
    rw [if_neg Bool.false_ne_true]
    cases required : (w.heap cert).requiresStaple crypto with
    | none =>
      constructor
      · rintro ⟨crashed,_⟩
        cases crashed
      · rintro ⟨_,parsed⟩
        have := Details.requiresStaple_isSome parsed
        simp [required] at this
    | some must =>
      dsimp only
      by_cases lacking : (must && !(w.heap cert).hasStapleFor answers.now supplier.minStapleValidity) = true
      · rw [if_pos lacking,supplied_staple]
        constructor
        · rintro ⟨_,quiet⟩
          simp at quiet
        · rintro ⟨stands,_⟩
          simp only [Bool.and_eq_true,Bool.not_eq_true'] at lacking
          have := stands.stapled (by rw [required,lacking.1])
          rw [lacking.2] at this
          cases this
      · rw [if_neg lacking]
        have stands : Stands crypto answers.now supplier (w.heap cert) := by
          refine ⟨due,fun must => ?_⟩
          simp_all
        cases parsed : (w.heap cert).keyPair crypto <;> simp [Outcome.ofExcept,stands]

theorem getCertificate_present
    (resolved : m.supplier preferredSupplier = .ok (supplier,supplierName))
    (present : store.getCertificate answers.lookup supplierName subject altNames w.heap w.store =
      some found) (fresh : answers.now ≤ (found.read w.heap).ariNextUpdate) :
    ∃ cert locked, locked.heap cert = found.read w.heap ∧ locked.supplied = w.supplied ∧
      m.getCertificate crypto store answers preferredSupplier subject altNames w =
        ((m.proceed crypto store answers supplier supplierName subject altNames cert locked).1.call
          (.unlockCertificate subject altNames),
        (m.proceed crypto store answers supplier supplierName subject altNames cert locked).2) := by
  obtain ⟨cert,taken,contents,quiet⟩ :=
    World.take_some (w.call (.lockCertificate subject altNames)) found
  refine ⟨cert,((w.call (.lockCertificate subject altNames)).take (some found)).1,contents,?_,?_⟩
  · rw [quiet]
    simp [Call.supplies]
  · have looked : lookup store answers.lookup supplierName subject altNames
        (w.call (.lockCertificate subject altNames)) =
        (((w.call (.lockCertificate subject altNames)).take (some found)).1,some cert) := by
      rw [lookup,World.heap_call,World.store_call,present,← taken]
    rw [World.heap_call] at contents
    rw [getCertificate,resolved]
    dsimp only
    rw [getLocked,looked]
    dsimp only
    rw [refresh,contents,if_neg (Int.not_lt.mpr fresh)]

theorem returnsStored_iff (resolved : m.supplier preferredSupplier = .ok (supplier,supplierName))
    (present : store.getCertificate answers.lookup supplierName subject altNames w.heap w.store =
      some found) (fresh : answers.now ≤ (found.read w.heap).ariNextUpdate) :
    ReturnsStored crypto store m answers preferredSupplier subject altNames w (found.read w.heap) ↔
      Stands crypto answers.now supplier (found.read w.heap) ∧
        ∃ key, (found.read w.heap).keyPair crypto = .ok key := by
  obtain ⟨cert,locked,contents,quiet,whole⟩ :=
    getCertificate_present crypto store resolved present fresh
  have core := proceed_quiet_iff crypto store m answers supplier supplierName subject altNames
    cert locked
  rw [ReturnsStored,whole]
  simp only [World.supplied_call,Call.supplies,Bool.false_eq_true,if_false,List.append_nil]
  rw [quiet,contents] at core
  constructor
  · rintro ⟨key,_,returned,silent⟩
    obtain ⟨stands,parsed⟩ := (core key).mp ⟨returned,silent⟩
    exact ⟨stands,key,parsed⟩
  · rintro ⟨stands,key,parsed⟩
    obtain ⟨returned,silent⟩ := (core key).mpr ⟨stands,parsed⟩
    exact ⟨key,parsed,returned,silent⟩

/-- The flag returned with a certificate says whether it stands. -/
theorem stands_iff (now : Int) (supplier : Supplier) (d : Details)
    (required : d.requiresStaple crypto = some must) :
    (d.shouldRenew now supplier.minCertificateValidity ||
      (must && !d.hasStapleFor now supplier.minStapleValidity)) = false ↔
        Stands crypto now supplier d := by
  rw [Bool.or_eq_false_iff]
  constructor
  · rintro ⟨due,lacking⟩
    refine ⟨due,fun mustStaple => ?_⟩
    obtain rfl : must = true := Option.some.inj (required.symm.trans mustStaple)
    simpa using lacking
  · intro stands
    refine ⟨stands.notDue,?_⟩
    cases must with
    | false => rfl
    | true => simp [stands.stapled required]

/-- `GetExistingCertificate` returns what is usable. -/
theorem judge_found_iff (now : Int) (supplier : Supplier) (d : Details) (key : TlsCertificate K)
    (renewal : Bool) : judge crypto now supplier d = .found key renewal ↔
      Usable crypto now d ∧ d.keyPair crypto = .ok key ∧
        (renewal = false ↔ Stands crypto now supplier d) := by
  unfold judge
  cases valid : d.validFor now 0 with
  | false =>
    constructor
    · intro expired
      cases expired
    · rintro ⟨usable,_⟩
      rw [usable.valid] at valid
      cases valid
  | true =>
    simp only [Bool.not_true,Bool.false_eq_true,if_false]
    cases required : d.requiresStaple crypto with
    | none =>
      constructor
      · intro crashed
        cases crashed
      · rintro ⟨_,parsed,_⟩
        have := Details.requiresStaple_isSome parsed
        simp [required] at this
    | some must =>
      dsimp only
      by_cases lapsed : (must && !d.hasStapleFor now 0) = true
      · rw [if_pos lapsed]
        simp only [Bool.and_eq_true,Bool.not_eq_true'] at lapsed
        constructor
        · intro expired
          cases expired
        · rintro ⟨usable,_⟩
          have := usable.stapled (by rw [required,lapsed.1])
          rw [lapsed.2] at this
          cases this
      · rw [if_neg lapsed]
        have stapled : d.requiresStaple crypto = some true → d.hasStapleFor now 0 = true := by
          intro mustStaple
          obtain rfl : must = true := Option.some.inj (required.symm.trans mustStaple)
          simpa using lapsed
        cases parsed : d.keyPair crypto with
        | error message => simp
        | ok pair =>
          have flag := stands_iff crypto now supplier d required
          rw [Existing.found.injEq,Except.ok.injEq,← flag,Bool.eq_false_iff,Bool.eq_false_iff,
            not_iff_not,← Bool.eq_iff_iff]
          constructor
          · rintro ⟨same,needs⟩
            exact ⟨⟨valid,stapled,pair,parsed⟩,same,needs.symm⟩
          · rintro ⟨_,same,needs⟩
            exact ⟨same,needs.symm⟩

/-- Needing nothing is standing and not having expired: a staple that lasts for the
minimum period lasts until now. -/
theorem judge_good_iff (now : Int) (d : Details) (nonneg : 0 ≤ supplier.minStapleValidity)
    (key : TlsCertificate K) : judge crypto now supplier d = .found key false ↔
      d.validFor now 0 = true ∧ Stands crypto now supplier d ∧ d.keyPair crypto = .ok key := by
  rw [judge_found_iff]
  constructor
  · rintro ⟨usable,parsed,standing⟩
    exact ⟨usable.valid,standing.mp rfl,parsed⟩
  · rintro ⟨valid,stands,parsed⟩
    have stapled (must : d.requiresStaple crypto = some true) : d.hasStapleFor now 0 = true :=
      Details.hasStapleFor_mono nonneg (stands.stapled must)
    exact ⟨⟨valid,stapled,key,parsed⟩,parsed,iff_of_true rfl stands⟩

theorem getExistingCertificate_present
    (resolved : m.supplier preferredSupplier = .ok (supplier,supplierName))
    (present : store.getCertificate how supplierName subject altNames w.heap w.store = some found) :
    (m.getExistingCertificate crypto store now how preferredSupplier subject altNames w).2 =
      judge crypto now supplier (found.read w.heap) := by
  obtain ⟨cert,taken,contents,_⟩ := w.take_some found
  have looked : lookup store how supplierName subject altNames w =
      ((w.take (some found)).1,some cert) := by
    rw [lookup,present,← taken]
  rw [getExistingCertificate,resolved]
  dsimp only
  rw [looked,← contents]

theorem existingGood_iff (resolved : m.supplier preferredSupplier = .ok (supplier,supplierName))
    (nonneg : 0 ≤ supplier.minStapleValidity)
    (present : store.getCertificate how supplierName subject altNames w.heap w.store = some found) :
    ExistingGood crypto store m now how preferredSupplier subject altNames w (found.read w.heap) ↔
      (found.read w.heap).validFor now 0 = true ∧ Stands crypto now supplier (found.read w.heap) ∧
        ∃ key, (found.read w.heap).keyPair crypto = .ok key := by
  rw [ExistingGood,getExistingCertificate_present crypto store resolved present]
  simp only [judge_good_iff crypto now _ nonneg]
  constructor
  · rintro ⟨key,_,valid,stands,parsed⟩
    exact ⟨valid,stands,key,parsed⟩
  · rintro ⟨valid,stands,key,parsed⟩
    exact ⟨key,parsed,valid,stands,parsed⟩

structure ExpiredUnnoticed (crypto : Crypto K) (now : Int) (supplier : Supplier) (d : Details) : Prop where
  expired : d.notAfter ≤ now
  ari : d.ariRenewalTime ≠ 0
  ahead : now ≤ d.ariRenewalTime
  stapled : d.requiresStaple crypto = some true → now + supplier.minStapleValidity < d.nextOcspUpdate
  parses : ∃ key, d.keyPair crypto = .ok key

/-- Without ARI a certificate that stands has not expired, so only ARI can hide an expiry. -/
theorem expiredUnnoticed_iff (now : Int) (d : Details) (nonneg : 0 ≤ supplier.minCertificateValidity) :
    ExpiredUnnoticed crypto now supplier d ↔
      Stands crypto now supplier d ∧ (∃ key, d.keyPair crypto = .ok key) ∧
        d.validFor now 0 = false := by
  constructor
  · rintro ⟨expired,ari,ahead,stapled,parses⟩
    refine ⟨⟨?_,fun must => Details.hasStapleFor_iff.mpr (stapled must)⟩,parses,?_⟩
    · simp [Details.shouldRenew,ari,ahead]
    · simp [Details.validFor,expired]
  · rintro ⟨stands,parses,invalid⟩
    have expired : d.notAfter ≤ now := by simpa [Details.validFor] using invalid
    by_cases ari : d.ariRenewalTime = 0
    · have := Details.valid_of_not_due nonneg ari stands.notDue
      rw [invalid] at this
      cases this
    · refine ⟨expired,ari,?_,fun must => Details.hasStapleFor_iff.mp (stands.stapled must),parses⟩
      simpa [Details.shouldRenew,ari] using stands.notDue

/-- The two paths agree on a stored certificate, and none that has expired is handed out
as good, unless its expiry goes unnoticed behind a later ARI renewal time. -/
theorem paths_agree_iff (m : Manager) (answers : Answers ι ω) (preferredSupplier subject : String)
    (altNames : List String) (w : World σ) (supplier : Supplier) (supplierName : String) (found : Found)
    (resolved : m.supplier preferredSupplier = .ok (supplier,supplierName))
    (nonneg : 0 ≤ supplier.minCertificateValidity) (nonnegStaple : 0 ≤ supplier.minStapleValidity)
    (present : store.getCertificate answers.lookup supplierName subject altNames w.heap w.store =
      some found)
    (fresh : ¬(found.read w.heap).ariNextUpdate < answers.now) :
    ((ReturnsStored crypto store m answers preferredSupplier subject altNames w (found.read w.heap) ↔
        ExistingGood crypto store m answers.now answers.lookup preferredSupplier subject altNames w
          (found.read w.heap)) ∧
      (ReturnsStored crypto store m answers preferredSupplier subject altNames w (found.read w.heap) →
        (found.read w.heap).notAfter > answers.now)) ↔
      ¬ExpiredUnnoticed crypto answers.now supplier (found.read w.heap) := by
  have valid_iff : (found.read w.heap).validFor answers.now 0 = true ↔
      (found.read w.heap).notAfter > answers.now := by simp
  rw [returnsStored_iff crypto store resolved present (Int.not_lt.mp fresh),
    existingGood_iff crypto store resolved nonnegStaple present,
    expiredUnnoticed_iff crypto answers.now _ nonneg,← valid_iff,← Bool.not_eq_true]
  constructor
  · rintro ⟨_,unexpired⟩ ⟨stands,parses,invalid⟩
    exact invalid (unexpired ⟨stands,parses⟩)
  · intro noticed
    have unexpired : Stands crypto answers.now supplier (found.read w.heap) ∧
        (∃ key, (found.read w.heap).keyPair crypto = .ok key) →
        (found.read w.heap).validFor answers.now 0 = true := by
      rintro ⟨stands,parses⟩
      by_contra invalid
      exact noticed ⟨stands,parses,invalid⟩
    refine ⟨⟨fun both => ⟨unexpired both,both⟩,fun all => all.2⟩,unexpired⟩

end Stored

def holding (d : Details) : World (JsonStore Ref) := ⟨fun _ => d,1,⟨[0],none⟩,[]⟩

def unreachable (now : Int) : Answers Unit WriteFile :=
  { now := now,lookup := (),renewalInfo := .error "timeout",saveRenewalInfo := .ok
    issued := .error "timeout",issuedRenewalInfo := .error "timeout",saveIssued := .ok
    staple := .error "timeout",saveStaple := .ok }

theorem sample_supplier :
    Sample.manager.supplier "" = .ok (⟨24 * 30 * Sample.hour,24 * Sample.hour⟩,"lego") := by
  decide

theorem holding_present (now ariNextUpdate ariRenewalTime : Int) :
    (JsonStore.asStore Sample.json).getCertificate (unreachable now).lookup "lego" "example.com" []
      (holding (Sample.stored ariNextUpdate ariRenewalTime)).heap
      (holding (Sample.stored ariNextUpdate ariRenewalTime)).store = some (.own 0) := by
  simp [JsonStore.asStore,JsonStore.getCertificate,selectCertificate,holding,Sample.stored,
    Details.isFor,sortedCopy]

def overdue : Details :=
  Sample.stored (Sample.leafNotAfter + 4 * Sample.hour) (Sample.leafNotAfter + 3 * Sample.hour)

/-- Two hours after its expiry the certificate is handed out by one path, while the
other calls it expired. -/
theorem expired_returned :
    ReturnsStored Sample.crypto (JsonStore.asStore Sample.json) Sample.manager
      (unreachable (Sample.leafNotAfter + 2 * Sample.hour)) "" "example.com" [] (holding overdue)
      overdue ∧
    overdue.notAfter ≤ Sample.leafNotAfter + 2 * Sample.hour ∧
    (Sample.manager.getExistingCertificate Sample.crypto (JsonStore.asStore Sample.json)
      (Sample.leafNotAfter + 2 * Sample.hour) () "" "example.com" [] (holding overdue)).2 =
        .missing true "certificate has expired" := by
  have present := holding_present (Sample.leafNotAfter + 2 * Sample.hour)
    (Sample.leafNotAfter + 4 * Sample.hour) (Sample.leafNotAfter + 3 * Sample.hour)
  refine ⟨?_,by decide,?_⟩
  · refine (returnsStored_iff Sample.crypto _ sample_supplier present (by decide)).mpr
      ⟨⟨by decide,?_⟩,_,Sample.stored_keyPair ..⟩
    intro must
    have := (Sample.stored_requiresStaple ..).symm.trans must
    cases this
  · exact (getExistingCertificate_present Sample.crypto _ sample_supplier present).trans
      (if_pos (by decide))

/-- A week before its expiry, once ARI names an earlier time, both paths find it due. -/
theorem due_agrees :
    (ReturnsStored Sample.crypto (JsonStore.asStore Sample.json) Sample.manager
      (unreachable (Sample.leafNotAfter - 168 * Sample.hour)) "" "example.com" []
      (holding (Sample.stored Sample.leafNotAfter (Sample.leafNotAfter - 200 * Sample.hour)))
      (Sample.stored Sample.leafNotAfter (Sample.leafNotAfter - 200 * Sample.hour)) ↔
    ExistingGood Sample.crypto (JsonStore.asStore Sample.json) Sample.manager
      (Sample.leafNotAfter - 168 * Sample.hour) () "" "example.com" []
      (holding (Sample.stored Sample.leafNotAfter (Sample.leafNotAfter - 200 * Sample.hour)))
      (Sample.stored Sample.leafNotAfter (Sample.leafNotAfter - 200 * Sample.hour))) :=
  ((paths_agree_iff Sample.crypto (JsonStore.asStore Sample.json) Sample.manager
    (unreachable (Sample.leafNotAfter - 168 * Sample.hour)) "" "example.com" [] _ _ _ _
    sample_supplier (by decide) (by decide) (holding_present _ Sample.leafNotAfter
      (Sample.leafNotAfter - 200 * Sample.hour)) (by decide)).mpr
    (fun unnoticed => absurd unnoticed.expired (by decide))).1

end Manager

end Centauri
