import Centauri.ManagerRules
import Centauri.RouteRenewal

/-! How often a supplier is asked for a certificate. On the file store an issued
certificate answers every later call for its provider and names until it is due, whether
the file could be written or not, so nothing is ordered before. -/
namespace Centauri

structure Details.Unspent (t margin : Int) (d : Details) : Prop where
  beyond : t + margin < d.notAfter
  patient : d.ariRenewalTime = 0 ∨ t ≤ d.ariRenewalTime

theorem Details.Unspent.not_due {d : Details} (unspent : d.Unspent t margin) (early : now ≤ t) :
    d.shouldRenew now margin = false := by
  have beyond := unspent.beyond
  unfold Details.shouldRenew
  split
  · simp only [Bool.not_eq_false',Details.validFor_iff]
    omega
  · next known =>
    have later := unspent.patient.resolve_left known
    simp only [decide_eq_false_iff_not]
    omega

def RenewalInfo.Patient (t : Int) (info : RenewalInfo) : Prop :=
  info.ariRenewalTime = 0 ∨ t ≤ info.ariRenewalTime

theorem Details.Unspent.withRenewalInfo {d : Details} {info : RenewalInfo} (unspent : d.Unspent t margin)
    (patient : info.Patient t) : (d.withRenewalInfo info).Unspent t margin := ⟨unspent.beyond,patient⟩

theorem Details.Unspent.issuedAs {d : Details} {answer : Except String RenewalInfo} (unspent : d.Unspent t margin)
    (patient : ∀ info, answer = .ok info → info.Patient t) : (d.issuedAs name answer).Unspent t margin := by
  cases answer with
  | error message => exact ⟨unspent.beyond,unspent.patient⟩
  | ok info => exact ⟨unspent.beyond,patient info rfl⟩

/-- Provider and names, the names other than the subject in order. -/
abbrev CertificateId := String × String × List String

def World.orders (w : World σ) : List Call := w.calls.filter Call.orders

theorem World.orders_call (w : World σ) (quiet : c.orders = false) : (w.call c).orders = w.orders := by
  simp [orders,World.call,quiet]

structure Secured (t margin : Int) (key : CertificateId) (w : World (JsonStore Ref)) : Prop
    extends Sound w where
  held : ∃ r ∈ w.store.certificates, keyOf w.heap r = key ∧ (w.heap r).Unspent t margin

def Spares (t margin : Int) (key : CertificateId) (w : World (JsonStore Ref)) (r : Ref) : Prop :=
  r < w.fresh ∧ (keyOf w.heap r = key → (w.heap r).Unspent t margin)

section Steps

variable {json : Json} {t margin now : Int} {key : CertificateId} {w : World (JsonStore Ref)} {r : Ref}

/-- An entry for the provider and names is the one that is held. -/
theorem Secured.unspent (secured : Secured t margin key w) (member : r ∈ w.store.certificates)
    (same : keyOf w.heap r = key) : (w.heap r).Unspent t margin := by
  obtain ⟨q,held,keyed,unspent⟩ := secured.held
  obtain rfl := secured.distinct.eq member held (same.trans keyed.symm)
  exact unspent

theorem Secured.modify (secured : Secured t margin key w) (f : Details → Details) (keys : ∀ d, (f d).key = d.key)
    (kept : ∀ d, d.Unspent t margin → (f d).Unspent t margin) : Secured t margin key (w.modify r f) where
  toSound := secured.toSound.modify f keys r
  held := by
    obtain ⟨q,held,keyed,unspent⟩ := secured.held
    refine ⟨q,held,(congrFun (keyOf_modify f keys r w) q).trans keyed,?_⟩
    rcases World.heap_modify_cases r f w q with same | changed
    · exact same ▸ unspent
    · exact changed ▸ kept _ unspent

theorem Spares.modify (spares : Spares t margin key w r) (f : Details → Details) (keys : ∀ d, (f d).key = d.key)
    (kept : ∀ d, d.Unspent t margin → (f d).Unspent t margin) : Spares t margin key (w.modify r f) r := by
  refine ⟨spares.1,fun keyed => ?_⟩
  rw [keyOf_modify f keys r w] at keyed
  simpa [World.modify] using kept _ (spares.2 keyed)

theorem Details.Unspent.alive {d : Details} (unspent : d.Unspent t margin) (early : now ≤ t) (nonneg : 0 ≤ margin) :
    now < d.notAfter := by
  have beyond := unspent.beyond
  omega

variable (json) in
/-- What is saved for the provider and names is held. -/
theorem Sound.secure (sound : Sound w) (allocated : r < w.fresh) (keyed : keyOf w.heap r = key)
    (unspent : (w.heap r).Unspent t margin) (how : WriteFile) (early : now ≤ t) (nonneg : 0 ≤ margin) :
    Secured t margin key (Manager.save (JsonStore.asStore json) now how r w).1 where
  toSound := sound.saved how allocated
  held := by
    refine ⟨r,?_,keyed,unspent⟩
    rw [certificates_save]
    exact Expiring.mem_save_self (unspent.alive early nonneg)

variable (json) in
/-- Nothing that is held expires before the time, and nothing takes its place that does not
last as long. -/
theorem Secured.save (secured : Secured t margin key w) (spares : Spares t margin key w r) (how : WriteFile)
    (early : now ≤ t) (nonneg : 0 ≤ margin) :
    Secured t margin key (Manager.save (JsonStore.asStore json) now how r w).1 := by
  obtain ⟨q,held,keyed,unspent⟩ := secured.held
  by_cases same : keyOf w.heap r = key
  · exact secured.toSound.secure json spares.1 same (spares.2 same) how early nonneg
  · refine ⟨secured.toSound.saved how spares.1,q,?_,keyed,unspent⟩
    rw [certificates_save]
    exact Expiring.mem_save_of_ne held (fun other => same (other.symm.trans keyed)) (unspent.alive early nonneg)

/-- New objects are of no concern to what is held. -/
theorem Secured.beyond {w' : World (JsonStore Ref)} (secured : Secured t margin key w)
    (store : w'.store = w.store) (grown : w.fresh ≤ w'.fresh) (same : ∀ q < w.fresh, w'.heap q = w.heap q) :
    Secured t margin key w' where
  toSound := secured.toSound.beyond store grown same
  held := by
    obtain ⟨q,held,keyed,unspent⟩ := secured.held
    have here := same q (secured.allocated q held)
    refine ⟨q,store ▸ held,?_,here ▸ unspent⟩
    rw [keyOf,here]
    exact keyed

end Steps

section Calls

variable {json : Json} {m : Manager} {t margin : Int} {key : CertificateId} {answers : Answers Unit WriteFile}
  {supplier : Supplier} {name subject : String} {altNames : List String} {w : World (JsonStore Ref)} {r : Ref}

/-- A call made by the time, in which no ARI data asks for a renewal before it and what is
issued is for the names. -/
structure Steady (t : Int) (subject : String) (altNames : List String) (answers : Answers Unit WriteFile) :
    Prop where
  early : answers.now ≤ t
  refreshed : ∀ info, answers.renewalInfo = .ok info → info.Patient t
  issued : ∀ d, answers.issued = .ok d → d.isFor subject altNames = true ∧ d.ariRenewalTime = 0
  annotated : ∀ info, answers.issuedRenewalInfo = .ok info → info.Patient t

variable (json name) in
/-- What is issued is a new object under the supplier's name and the names asked for. -/
theorem issuing_key (w : World (JsonStore Ref)) (named : d.isFor subject altNames = true) :
    (Manager.issuing (JsonStore.asStore json) answers name d w).store = w.store ∧
    (Manager.issuing (JsonStore.asStore json) answers name d w).fresh = w.fresh + 1 ∧
    (Manager.issuing (JsonStore.asStore json) answers name d w).heap w.fresh =
      d.issuedAs name answers.issuedRenewalInfo ∧
    keyOf (Manager.issuing (JsonStore.asStore json) answers name d w).heap w.fresh =
      (name,subject,sortedCopy altNames) ∧
    ∀ q < w.fresh, (Manager.issuing (JsonStore.asStore json) answers name d w).heap q = w.heap q := by
  obtain ⟨store,fresh,here,older⟩ := Manager.issue_spec (JsonStore.asStore json) answers.now
    answers.issuedRenewalInfo name d w _ rfl
  refine ⟨store,fresh,here,?_,older⟩
  obtain ⟨rfl,perm⟩ := (Details.isFor_iff d subject altNames).mp named
  rw [keyOf]
  refine (congrArg Details.key here).trans ?_
  rw [Details.issuedAs_key,(sortedCopy_eq_iff _ _).mpr perm]

/-- Which certificate a lookup finds: the one that is held, if it looks for it. -/
theorem Secured.found (secured : Secured t margin key w)
    (found : w.store.getCertificate w.heap name subject altNames = some r) :
    Spares t margin key w r ∧ ((name,subject,sortedCopy altNames) = key → keyOf w.heap r = key) := by
  obtain ⟨member,chosen⟩ := (getCertificate_eq_some_iff secured.distinct).mp found
  refine ⟨⟨secured.allocated r member,secured.unspent member⟩,fun ours => ?_⟩
  rcases chosen with same | ⟨_,none⟩
  · exact same.trans ours
  · obtain ⟨q,held,keyed,_⟩ := secured.held
    exact absurd (keyed.trans ours.symm) (none q held)

theorem Secured.present (secured : Secured t margin (name,subject,sortedCopy altNames) w) :
    w.store.getCertificate w.heap name subject altNames ≠ none := by
  obtain ⟨q,held,keyed,_⟩ := secured.held
  rw [(getCertificate_eq_some_iff secured.distinct).mpr ⟨held,.inl keyed⟩]
  simp

variable (json) in
/-- An entry is rewritten and saved. -/
theorem Secured.resave (secured : Secured t margin key w) (spares : Spares t margin key w r) (how : WriteFile)
    (early : now ≤ t) (nonneg : 0 ≤ margin) (f : Details → Details) (keys : ∀ d, (f d).key = d.key)
    (kept : ∀ d, d.Unspent t margin → (f d).Unspent t margin) :
    Secured t margin key (Manager.save (JsonStore.asStore json) now how r (w.modify r f)).1 ∧
      Spares t margin key (Manager.save (JsonStore.asStore json) now how r (w.modify r f)).1 r :=
  have spares := spares.modify f keys kept
  ⟨(secured.modify f keys kept).save json spares how early nonneg,spares⟩

/-- While the certificate is held, calls keep it, and those for its provider and names order
nothing. -/
theorem secured_rule (steady : Steady t subject altNames answers) (nonneg : 0 ≤ margin)
    (same : (name,subject,sortedCopy altNames) = key → supplier.minCertificateValidity = margin)
    (orders : List Call) :
    Manager.Rule crypto m (JsonStore.asStore json) answers supplier name subject altNames
      (fun w => Secured t margin key w ∧ ((name,subject,sortedCopy altNames) = key → w.orders = orders))
      (fun w => Secured t margin key w ∧ (name,subject,sortedCopy altNames) ≠ key)
      (fun w r => Spares t margin key w r ∧ ((name,subject,sortedCopy altNames) = key → keyOf w.heap r = key))
      (Spares t margin key) where
  called := fun ⟨secured,quiet⟩ silent =>
    ⟨⟨⟨secured.distinct,secured.allocated⟩,secured.held⟩,fun ours => (World.orders_call _ silent).trans (quiet ours)⟩
  hand_called hand _ := hand
  fit_called spares _ := spares
  found := by
    intro w w' r ⟨secured,quiet⟩ looked
    rw [lookup_json] at looked
    obtain ⟨rfl,found⟩ := Prod.mk.inj looked
    exact ⟨⟨secured,quiet⟩,secured.found found⟩
  refreshed := by
    intro w r info ⟨secured,quiet⟩ ⟨spares,ours⟩ answered
    obtain ⟨secured,spares⟩ := secured.resave json spares answers.saveRenewalInfo steady.early nonneg
      (Details.withRenewalInfo info) (fun _ => rfl)
      (fun _ unspent => unspent.withRenewalInfo (steady.refreshed info answered))
    refine ⟨⟨secured,quiet⟩,spares,fun same => ?_⟩
    exact (congrFun (keyOf_modify (Details.withRenewalInfo info) (fun _ => rfl) r w) r).trans (ours same)
  settled _ hand _ _ := hand.1
  absent := by
    intro w ⟨secured,_⟩ absent
    refine ⟨⟨⟨secured.distinct,secured.allocated⟩,secured.held⟩,fun ours => ?_⟩
    subst ours
    refine secured.present ?_
    simpa [JsonStore.asStore] using absent
  due := by
    intro w r ⟨secured,_⟩ ⟨spares,ours⟩ due
    refine ⟨⟨⟨secured.distinct,secured.allocated⟩,secured.held⟩,fun here => ?_⟩
    rw [same here,(spares.2 (ours here)).not_due steady.early] at due
    cases due
  refused := fun ⟨secured,other⟩ _ => ⟨secured,fun ours => absurd ours other⟩
  issued := by
    intro w d ⟨secured,other⟩ issued
    obtain ⟨store,fresh,_,keyed,older⟩ := issuing_key json name w (steady.issued d issued).1
    have spares : Spares t margin key (Manager.issuing (JsonStore.asStore json) answers name d w) w.fresh :=
      ⟨by rw [fresh]; exact Nat.lt_succ_self _,fun ours => absurd (keyed.symm.trans ours) other⟩
    have secured := secured.beyond store (by rw [fresh]; exact Nat.le_succ _) older
    exact ⟨⟨secured.save json spares _ steady.early nonneg,fun ours => absurd ours other⟩,spares⟩
  stapled := by
    intro w r s ⟨secured,quiet⟩ ⟨spares,_⟩ _ _
    obtain ⟨secured,spares⟩ := secured.resave json spares answers.saveStaple steady.early nonneg
      (Details.withStaple s) (fun _ => rfl) (fun _ unspent => ⟨unspent.beyond,unspent.patient⟩)
    exact ⟨⟨secured,quiet⟩,spares⟩

/-- A certificate that is ordered and issued is held from then on. -/
theorem ordered_rule (steady : Steady t subject altNames answers) (nonneg : 0 ≤ margin)
    (issued : answers.issued = .ok d) (beyond : t + margin < d.notAfter) (orders : List Call) :
    Manager.Rule crypto m (JsonStore.asStore json) answers supplier name subject altNames
      (fun w => Sound w ∧ (w.orders ≠ orders → Secured t margin (name,subject,sortedCopy altNames) w))
      Sound (fun w r => r < w.fresh ∧ (w.orders ≠ orders → Spares t margin (name,subject,sortedCopy altNames) w r))
      (fun w r => r < w.fresh ∧ (w.orders ≠ orders → Spares t margin (name,subject,sortedCopy altNames) w r)) where
  called := by
    intro w c ⟨sound,secured⟩ silent
    refine ⟨⟨sound.distinct,sound.allocated⟩,fun ordered => ?_⟩
    have secured := secured (World.orders_call w silent ▸ ordered)
    exact ⟨⟨secured.distinct,secured.allocated⟩,secured.held⟩
  hand_called hand silent := ⟨hand.1,fun ordered => hand.2 (World.orders_call _ silent ▸ ordered)⟩
  fit_called fit silent := ⟨fit.1,fun ordered => fit.2 (World.orders_call _ silent ▸ ordered)⟩
  found := by
    intro w w' r ⟨sound,secured⟩ looked
    rw [lookup_json] at looked
    obtain ⟨rfl,found⟩ := Prod.mk.inj looked
    refine ⟨⟨sound,secured⟩,?_,fun ordered => ((secured ordered).found found).1⟩
    exact sound.allocated r ((getCertificate_eq_some_iff sound.distinct).mp found).1
  refreshed := by
    intro w r info ⟨sound,secured⟩ ⟨allocated,spares⟩ answered
    have both (ordered : w.orders ≠ orders) := (secured ordered).resave json (spares ordered)
      answers.saveRenewalInfo steady.early nonneg (Details.withRenewalInfo info) (fun _ => rfl)
      (fun _ unspent => unspent.withRenewalInfo (steady.refreshed info answered))
    refine ⟨⟨?_,fun ordered => (both ordered).1⟩,allocated,fun ordered => (both ordered).2⟩
    exact (sound.modify (Details.withRenewalInfo info) (fun _ => rfl) r).saved _ allocated
  settled _ hand _ _ := hand
  absent := fun ⟨sound,_⟩ _ => ⟨sound.distinct,sound.allocated⟩
  due := fun ⟨sound,_⟩ _ _ => ⟨sound.distinct,sound.allocated⟩
  refused := by
    intro w message _ refused
    rw [issued] at refused
    cases refused
  issued := by
    intro w e sound ordered
    obtain rfl := Except.ok.inj (issued.symm.trans ordered)
    obtain ⟨named,unknown⟩ := steady.issued d issued
    obtain ⟨store,fresh,here,keyed,older⟩ := issuing_key json name w named
    have allocated : w.fresh < (Manager.issuing (JsonStore.asStore json) answers name d w).fresh := by
      rw [fresh]
      exact Nat.lt_succ_self _
    have unspent : ((Manager.issuing (JsonStore.asStore json) answers name d w).heap w.fresh).Unspent t margin := by
      rw [here]
      exact Details.Unspent.issuedAs ⟨beyond,.inl unknown⟩ steady.annotated
    have secured := (sound.beyond store allocated.le older).secure json allocated keyed unspent
      answers.saveIssued steady.early nonneg
    exact ⟨⟨secured.toSound,fun _ => secured⟩,allocated,fun _ => ⟨allocated,fun _ => unspent⟩⟩
  stapled := by
    intro w r s ⟨sound,secured⟩ ⟨allocated,spares⟩ _ _
    have both (ordered : w.orders ≠ orders) := (secured ordered).resave json (spares ordered)
      answers.saveStaple steady.early nonneg (Details.withStaple s) (fun _ => rfl)
      (fun _ unspent => ⟨unspent.beyond,unspent.patient⟩)
    refine ⟨⟨?_,fun ordered => (both ordered).1⟩,allocated,fun ordered => (both ordered).2⟩
    exact (sound.modify (Details.withStaple s) (fun _ => rfl) r).saved _ allocated

/-- Whatever a call meets, the store stays sound. -/
theorem sound_rule : Manager.Rule crypto m (JsonStore.asStore json) answers supplier name subject altNames Sound Sound
    (fun w r => r < w.fresh) (fun w r => r < w.fresh) where
  called sound _ := ⟨sound.distinct,sound.allocated⟩
  hand_called allocated _ := allocated
  fit_called allocated _ := allocated
  found := by
    intro w w' r sound looked
    rw [lookup_json] at looked
    obtain ⟨rfl,found⟩ := Prod.mk.inj looked
    exact ⟨sound,sound.allocated r ((getCertificate_eq_some_iff sound.distinct).mp found).1⟩
  refreshed sound allocated _ := ⟨(sound.modify (Details.withRenewalInfo _) (fun _ => rfl) _).saved _ allocated,allocated⟩
  settled _ allocated _ _ := allocated
  absent sound _ := ⟨sound.distinct,sound.allocated⟩
  due sound _ _ := ⟨sound.distinct,sound.allocated⟩
  refused sound _ := sound
  issued := by
    intro w d sound _
    obtain ⟨store,fresh,_,older⟩ := Manager.issue_spec (JsonStore.asStore json) answers.now
      answers.issuedRenewalInfo name d w _ rfl
    have allocated : w.fresh < (Manager.issuing (JsonStore.asStore json) answers name d w).fresh :=
      fresh ▸ Nat.lt_succ_self _
    exact ⟨(sound.beyond store allocated.le older).saved _ allocated,allocated⟩
  stapled sound allocated _ _ := ⟨(sound.modify (Details.withStaple _) (fun _ => rfl) _).saved _ allocated,allocated⟩

end Calls

namespace ManagerCall

variable {K : Type} {json : Json} {crypto : Crypto K} {m : Manager} {t margin : Int} {key : CertificateId}
  {w : World (JsonStore Ref)}

def For (m : Manager) (key : CertificateId) : ManagerCall → Prop
  | .getCertificate _ preferredSupplier subject altNames =>
    ∃ supplier name, m.supplier preferredSupplier = .ok (supplier,name) ∧ (name,subject,sortedCopy altNames) = key
  | .getExistingCertificate _ _ _ _ => False

def issued : ManagerCall → Except String Details
  | .getCertificate answers _ _ _ => answers.issued
  | .getExistingCertificate _ _ _ _ => .error "not a call for a new certificate"

def Steady (t : Int) : ManagerCall → Prop
  | .getCertificate answers _ subject altNames => Centauri.Steady t subject altNames answers
  | .getExistingCertificate _ _ _ _ => True

variable (json crypto m) in
def Orders (w : World (JsonStore Ref)) (c : ManagerCall) : Prop := (c.apply json crypto m w).1.orders ≠ w.orders

instance (w : World (JsonStore Ref)) (c : ManagerCall) : Decidable (c.Orders json crypto m w) :=
  inferInstanceAs (Decidable ((c.apply json crypto m w).1.orders ≠ w.orders))

theorem apply_existing (now : Int) (preferredSupplier subject : String) (altNames : List String) :
    ((getExistingCertificate now preferredSupplier subject altNames).apply json crypto m w).1 = w :=
  (existing_spec rfl).1

theorem apply_sound (sound : Sound w) (c : ManagerCall) : Sound (c.apply json crypto m w).1 := by
  cases c with
  | getExistingCertificate now preferredSupplier subject altNames =>
    rw [apply_existing]
    exact sound
  | getCertificate answers preferredSupplier subject altNames =>
    cases resolved : m.supplier preferredSupplier with
    | error message =>
      rw [apply_unresolved _ resolved]
      exact sound
    | ok found => exact (sound_rule.getCertificate resolved sound).inv

/-- A call for the key orders nothing while a certificate is held, and every call keeps it. -/
theorem apply_secured (secured : Secured t margin key w) (c : ManagerCall) (steady : c.Steady t)
    (nonneg : 0 ≤ margin)
    (same : ∀ supplier, m.suppliers key.1 = some supplier → supplier.minCertificateValidity = margin) :
    Secured t margin key (c.apply json crypto m w).1 ∧ (c.For m key → ¬c.Orders json crypto m w) := by
  cases c with
  | getExistingCertificate now preferredSupplier subject altNames =>
    rw [apply_existing]
    exact ⟨secured,nofun⟩
  | getCertificate answers preferredSupplier subject altNames =>
    cases resolved : m.supplier preferredSupplier with
    | error message =>
      rw [apply_unresolved _ resolved]
      refine ⟨secured,?_⟩
      rintro ⟨supplier,name,found,_⟩
      rw [resolved] at found
      cases found
    | ok found =>
      obtain ⟨supplier,name⟩ := found
      have known := Manager.supplier_known resolved
      have margins (ours : (name,subject,sortedCopy altNames) = key) :
          supplier.minCertificateValidity = margin := by
        subst ours
        exact same supplier known
      have rule : Manager.Rule crypto m (JsonStore.asStore json) answers supplier name subject altNames _ _ _ _ :=
        secured_rule steady nonneg margins w.orders
      have follows := rule.getCertificate resolved ⟨secured,fun _ => rfl⟩
      refine ⟨follows.inv.1,?_⟩
      rintro ⟨supplier',name',found,ours⟩ orders
      obtain ⟨rfl,rfl⟩ := Prod.mk.inj (Except.ok.inj (resolved.symm.trans found))
      exact orders (follows.inv.2 ours)

/-- A call that orders a certificate and is issued one leaves it held. -/
theorem orders_secured (sound : Sound w) (c : ManagerCall) (ours : c.For m key) (steady : c.Steady t)
    (nonneg : 0 ≤ margin) (orders : c.Orders json crypto m w) (issued : c.issued = .ok d)
    (beyond : t + margin < d.notAfter) : Secured t margin key (c.apply json crypto m w).1 := by
  cases c with
  | getExistingCertificate now preferredSupplier subject altNames => exact ours.elim
  | getCertificate answers preferredSupplier subject altNames =>
    obtain ⟨supplier,name,resolved,rfl⟩ := ours
    have rule : Manager.Rule crypto m (JsonStore.asStore json) answers supplier name subject altNames _ _ _ _ :=
      ordered_rule steady nonneg issued beyond w.orders
    exact (rule.getCertificate resolved ⟨sound,fun differs => absurd rfl differs⟩).inv.2 orders

/-- Orders for one provider and the same names are apart: a certificate that was issued is
replaced only once it has no more than the supplier's minimum validity left, whatever other
calls are made meanwhile and whether or not the file can be written. -/
theorem orders_apart (json : Json) (crypto : Crypto K) (m : Manager) (start : JsonWorld)
    (distinct : Expiring.Distinct (keyOf start.heap) start.store.certificates) (key : CertificateId)
    (supplier : Supplier) (known : m.suppliers key.1 = some supplier)
    (nonneg : 0 ≤ supplier.minCertificateValidity) (xs ys : List ManagerCall) (w u : World (JsonStore Ref))
    (first second : ManagerCall) (run : (machine json crypto m).Run start.toWorld xs w)
    (ours : first.For m key) (steady : first.Steady second.now) (orders : first.Orders json crypto m w)
    (d : Details) (issued : first.issued = .ok d)
    (later : ((machine json crypto m).restrict fun _ c => c.Steady second.now).Run
      (first.apply json crypto m w).1 ys u)
    (again : second.For m key) (calm : second.Steady second.now) (reorders : second.Orders json crypto m u) :
    d.notAfter ≤ second.now + supplier.minCertificateValidity := by
  by_contra early
  have sound : Sound w := run.invariant Sound (fun _ c sound _ => apply_sound sound c) ⟨distinct,start.allocated⟩
  have same (other : Supplier) (found : m.suppliers key.1 = some other) :
      other.minCertificateValidity = supplier.minCertificateValidity := by
    rw [Option.some.inj (found.symm.trans known)]
  have held := orders_secured sound first ours steady nonneg orders issued (by omega)
  have still : Secured second.now supplier.minCertificateValidity key u := by
    refine later.invariant (Secured second.now supplier.minCertificateValidity key) (fun v c secured enabled => ?_) held
    exact (apply_secured secured c enabled.2 nonneg same).1
  exact (apply_secured still second calm nonneg same).2 again reorders

end ManagerCall

namespace Sample

/-- A certificate is issued for a year, and the file cannot be written. -/
def ordering (now : Int) : ManagerCall :=
  .getCertificate { Manager.unreachable now with
      issued := .ok (bare "" "example.com" [] (now + 24 * 365 * hour))
      saveIssued := .failed "no space left on device" none } "" "example.com" []

theorem ordering_steady (early : now ≤ t) : (ordering now).Steady t where
  early := early
  refreshed := nofun
  issued := by
    intro d issued
    cases issued
    exact ⟨(Details.isFor_iff ..).mpr ⟨rfl,.refl _⟩,rfl⟩
  annotated := nofun

def nothingStored : JsonWorld :=
  ⟨⟨fun _ => bare "" "" [] 0,0,.empty,[]⟩,nofun⟩

def afterOrder : World (JsonStore Ref) := ((ordering hour).apply json crypto manager nothingStored.toWorld).1

/-- A year's certificate is ordered anew in its last month, and not before. -/
theorem reordered_in_time : (ordering (24 * 336 * hour)).Orders json crypto manager afterOrder ∧
    ¬(ordering (24 * 335 * hour)).Orders json crypto manager afterOrder ∧
    hour + 24 * 365 * hour ≤ 24 * 336 * hour + 24 * 30 * hour := by
  have reorders : (ordering (24 * 336 * hour)).Orders json crypto manager afterOrder := by decide +kernel
  refine ⟨reorders,by decide +kernel,?_⟩
  exact ManagerCall.orders_apart json crypto manager nothingStored (by decide) ("lego","example.com",[])
    ⟨24 * 30 * hour,24 * hour⟩ (by decide) (by decide) [] [] nothingStored.toWorld afterOrder (ordering hour)
    (ordering (24 * 336 * hour)) .nil ⟨_,_,rfl,rfl⟩ (ordering_steady (by decide)) (by decide +kernel)
    _ rfl .nil ⟨_,_,rfl,rfl⟩ (ordering_steady (by decide)) reorders

end Sample

end Centauri
