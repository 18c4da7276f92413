import Centauri.Machine
import Centauri.RouteRenewal

/-! Certificates of several providers, and old ones of none, share one file store. A
call for one supplier hands out and disturbs only what is its own: nothing here assumes
that the stored certificates are distinct. -/
namespace Centauri

variable {K : Type}

theorem ofExcept_ok {e : Except String α} (returned : Outcome.ofExcept e = .ok value) : e = .ok value := by
  cases e with
  | error message => cases returned
  | ok other =>
    cases returned
    rfl

/-- A lookup finds an entry for the names, of the provider or of none. -/
theorem selectCertificate_mem {deref : ρ → Details} {legacy : Option ρ}
    (found : selectCertificate deref provider subject altNames legacy entries = some r) :
    legacy = some r ∨
      r ∈ entries ∧ ((deref r).provider = provider ∨ (deref r).provider = "") := by
  induction entries generalizing legacy with
  | nil => exact .inl found
  | cons q rest ih =>
    have later : r ∈ rest ∧ ((deref r).provider = provider ∨ (deref r).provider = "") →
        r ∈ q :: rest ∧ ((deref r).provider = provider ∨ (deref r).provider = "") :=
      fun ⟨member,label⟩ => ⟨List.mem_cons_of_mem _ member,label⟩
    unfold selectCertificate at found
    split at found
    · exact (ih found).imp_right later
    split at found
    next exact' =>
      cases found
      exact .inr ⟨List.mem_cons_self,.inl (beq_iff_eq.mp exact')⟩
    split at found
    next bare =>
      rcases ih found with same | held
      · cases same
        exact .inr ⟨List.mem_cons_self,.inr (beq_iff_eq.mp bare)⟩
      · exact .inr (later held)
    next => exact (ih found).imp_right later

theorem selectCertificate_own {deref : ρ → Details}
    (found : selectCertificate deref provider subject altNames none entries = some r) :
    r ∈ entries ∧ ((deref r).provider = provider ∨ (deref r).provider = "") :=
  (selectCertificate_mem found).resolve_left (by simp)

/-- From one world to the next: no certificate changes its provider, names or expiry, new
ones are of provider `p`, and an unexpired certificate gives way only to one of its own
provider and names among those `saved`. -/
structure Isolates (p : String) (now : Int) (saved : Ref → Prop) (w w' : World (JsonStore Ref)) :
    Prop where
  grown : w.fresh ≤ w'.fresh
  newest : ∀ q < w'.fresh, w.fresh ≤ q → (w'.heap q).provider = p
  keys : ∀ q < w.fresh, keyOf w'.heap q = keyOf w.heap q
  dates : ∀ q < w.fresh, (w'.heap q).notAfter = (w.heap q).notAfter
  stored : ∀ q ∈ w'.store.certificates,
    q < w'.fresh ∧ (q ∈ w.store.certificates ∨ (w'.heap q).provider = p)
  kept : ∀ q ∈ w.store.certificates, now < (w.heap q).notAfter → q ∈ w'.store.certificates ∨
    ∃ r < w'.fresh, r ≠ q ∧ saved r ∧ keyOf w'.heap r = keyOf w'.heap q

def Allocated (w : World (JsonStore Ref)) : Prop := ∀ q ∈ w.store.certificates, q < w.fresh

section Steps

variable {json : Json} {p : String} {now : Int} {saved : Ref → Prop}
  {w w₁ w₂ : World (JsonStore Ref)} {r : Ref}

theorem Isolates.allocated (isolates : Isolates p now saved w w₁) : Allocated w₁ :=
  fun q member => (isolates.stored q member).1

theorem Isolates.provider (isolates : Isolates p now saved w w₁) (older : q < w.fresh) :
    (w₁.heap q).provider = (w.heap q).provider := congrArg Prod.fst (isolates.keys q older)

/-- Nothing but new objects. -/
theorem Isolates.beyond (allocated : Allocated w) (store : w₁.store = w.store)
    (grown : w.fresh ≤ w₁.fresh) (newest : ∀ q < w₁.fresh, w.fresh ≤ q → (w₁.heap q).provider = p)
    (same : ∀ q < w.fresh, w₁.heap q = w.heap q) : Isolates p now saved w w₁ where
  grown := grown
  newest := newest
  keys q older := congrArg Details.key (same q older)
  dates q older := congrArg Details.notAfter (same q older)
  stored q member := by
    rw [store] at member
    exact ⟨Nat.lt_of_lt_of_le (allocated q member) grown,.inl member⟩
  kept q member _ := .inl (store ▸ member)

theorem Isolates.refl (allocated : Allocated w) : Isolates p now saved w w :=
  .beyond allocated rfl (Nat.le_refl _) (fun _ bound new => absurd bound (Nat.not_lt_of_ge new))
    fun _ _ => rfl

theorem Isolates.trans (allocated : Allocated w) (first : Isolates p now saved w w₁)
    (second : Isolates p now saved w₁ w₂) : Isolates p now saved w w₂ where
  grown := Nat.le_trans first.grown second.grown
  newest q bound new := by
    rcases Nat.lt_or_ge q w₁.fresh with older | newer
    · exact (second.provider older).trans (first.newest q older new)
    · exact second.newest q bound newer
  keys q older := (second.keys q (Nat.lt_of_lt_of_le older first.grown)).trans (first.keys q older)
  dates q older := (second.dates q (Nat.lt_of_lt_of_le older first.grown)).trans (first.dates q older)
  stored q member := by
    obtain ⟨bound,before | own⟩ := second.stored q member
    · obtain ⟨older,held | own⟩ := first.stored q before
      · exact ⟨bound,.inl held⟩
      · exact ⟨bound,.inr ((second.provider older).trans own)⟩
    · exact ⟨bound,.inr own⟩
  kept q member alive := by
    have older := allocated q member
    have older' := Nat.lt_of_lt_of_le older first.grown
    rcases first.kept q member alive with held | ⟨r,bound,ne,touched,same⟩
    · exact second.kept q held (first.dates q older ▸ alive)
    · refine .inr ⟨r,Nat.lt_of_lt_of_le bound second.grown,ne,touched,?_⟩
      rw [second.keys r bound,second.keys q older',same]

variable (json) in
/-- Saving an entry, or a new certificate of provider `p`. -/
theorem Isolates.save (how : WriteFile) (allocated : Allocated w) (isolates : Isolates p now saved w w₁)
    (bound : r < w₁.fresh) (own : r ∈ w.store.certificates ∨ (w₁.heap r).provider = p)
    (touched : saved r) :
    Isolates p now saved w (Manager.save (JsonStore.asStore json) now how r w₁).1 := by
  have contents : (Manager.save (JsonStore.asStore json) now how r w₁).1.store.certificates =
      Expiring.save (keyOf w₁.heap) (expiryOf w₁.heap) w₁.store.certificates (now,r) :=
    JsonStore.saveCertificate_certificates json w₁.heap now how r w₁.store
  refine ⟨isolates.grown,isolates.newest,isolates.keys,isolates.dates,?_,?_⟩
  · intro q member
    rw [contents] at member
    rcases Expiring.mem_of_mem_save member with rfl | old
    · exact ⟨bound,own⟩
    · exact isolates.stored q old
  · intro q member alive
    rcases isolates.kept q member alive with held | gone
    · have alive' : now < expiryOf w₁.heap q := by
        rw [expiryOf,isolates.dates q (allocated q member)]
        exact alive
      by_cases itself : q = r
      · subst itself
        exact .inl (contents ▸ Expiring.mem_save_self alive')
      · by_cases same : keyOf w₁.heap q = keyOf w₁.heap r
        · exact .inr ⟨r,bound,Ne.symm itself,touched,same.symm⟩
        · exact .inl (contents ▸ Expiring.mem_save_of_ne held same alive')
    · exact .inr gone

theorem Isolates.call (isolates : Isolates p now saved w w₁) (c : Call) :
    Isolates p now saved w (w₁.call c) :=
  ⟨isolates.grown,isolates.newest,isolates.keys,isolates.dates,isolates.stored,isolates.kept⟩

/-- Fields other than those that identify a certificate are rewritten in place. -/
theorem Isolates.modify (isolates : Isolates p now saved w w₁) (r : Ref) (f : Details → Details)
    (key : ∀ d, (f d).key = d.key) (date : ∀ d, (f d).notAfter = d.notAfter) :
    Isolates p now saved w (w₁.modify r f) := by
  have contents := w₁.heap_modify_cases r f
  have keys (q : Ref) : keyOf (w₁.modify r f).heap q = keyOf w₁.heap q := by
    rcases contents q with eq | eq
    · rw [keyOf,eq]
      rfl
    · rw [keyOf,eq,key]
      rfl
  have dates (q : Ref) : ((w₁.modify r f).heap q).notAfter = (w₁.heap q).notAfter := by
    rcases contents q with eq | eq
    · rw [eq]
    · rw [eq,date]
  have provider (q : Ref) : ((w₁.modify r f).heap q).provider = (w₁.heap q).provider :=
    congrArg Prod.fst (keys q)
  refine ⟨isolates.grown,fun q bound new => (provider q).trans (isolates.newest q bound new),
    fun q older => (keys q).trans (isolates.keys q older),
    fun q older => (dates q).trans (isolates.dates q older),fun q member => ?_,
    fun q member alive => ?_⟩
  · rw [provider]
    exact isolates.stored q member
  · simp only [keys]
    exact isolates.kept q member alive

end Steps

structure Isolated (crypto : Crypto K) (p : String) (now : Int) (saved : Ref → Prop)
    (w : World (JsonStore Ref)) (result : World (JsonStore Ref) × Outcome (TlsCertificate K)) : Prop
    extends Isolates p now saved w result.1 where
  returned : ∀ key, result.2 = .ok key → ∃ r, (result.1.heap r).keyPair crypto = .ok key ∧
    ((result.1.heap r).provider = p ∨ (result.1.heap r).provider = "" ∧ r ∈ w.store.certificates)

section Calls

variable {json : Json} {crypto : Crypto K} {m : Manager} {p subject : String} {altNames : List String}
  {saved : Ref → Prop} {answers : Answers Unit WriteFile} {w ready : World (JsonStore Ref)} {r : Ref}

theorem deliver_isolated (how : WriteFile) (label : String) (allocated : Allocated w)
    (isolates : Isolates p now saved w ready) (bound : r < ready.fresh) (touched : saved r)
    (own : (ready.heap r).provider = p ∨ (ready.heap r).provider = "" ∧ r ∈ w.store.certificates) :
    Isolated crypto p now saved w
      (Manager.deliver crypto (JsonStore.asStore json) now how label r ready) := by
  have whole := isolates.save json how allocated bound (own.symm.imp_left And.right) touched
  unfold Manager.deliver
  split
  next left message failed =>
    rw [failed] at whole
    exact ⟨whole,fun key returned => by cases returned⟩
  next left done =>
    have heap : left.heap = ready.heap := congrArg (World.heap ∘ Prod.fst) done.symm
    rw [done] at whole
    refine ⟨whole,fun key returned => ⟨r,ofExcept_ok returned,?_⟩⟩
    rw [heap]
    exact own

variable (json m) in
theorem obtain_isolated (allocated : Allocated w) (newest : ∀ r, w.fresh ≤ r → saved r) :
    Isolated crypto p answers.now saved w
      (m.obtain crypto (JsonStore.asStore json) answers p subject altNames w) := by
  unfold Manager.obtain
  cases answers.issued with
  | error message =>
    exact ⟨(Isolates.refl allocated).call _,fun key returned => by cases returned⟩
  | ok d =>
    obtain ⟨store,grown,contents,older⟩ := Manager.issue_spec (JsonStore.asStore json) answers.now
      answers.issuedRenewalInfo p d (w.call (.getCertificate subject altNames m.shouldStaple)) _ rfl
    have own : (d.issuedAs p answers.issuedRenewalInfo).provider = p :=
      congrArg Prod.fst (Details.issuedAs_key p answers.issuedRenewalInfo d)
    apply deliver_isolated _ _ allocated
    · refine .beyond allocated store (grown ▸ Nat.le_succ _) (fun q bound new => ?_) older
      obtain rfl : q = w.fresh := Nat.le_antisymm (Nat.lt_succ_iff.mp (bound.trans_eq grown)) new
      exact (congrArg Details.provider contents).trans own
    · exact grown ▸ Nat.lt_succ_self _
    · exact newest _ (Nat.le_refl _)
    · exact .inl ((congrArg Details.provider contents).trans own)

variable (json) in
theorem refresh_isolates (allocated : Allocated w) (member : r ∈ w.store.certificates) (touched : saved r) :
    Isolates p answers.now saved w (Manager.refresh (JsonStore.asStore json) answers r w) := by
  have called : Isolates p answers.now saved w (w.call (.updateRenewalInfo r)) :=
    (Isolates.refl allocated).call _
  unfold Manager.refresh
  split
  · unfold Manager.updateRenewalInfo
    cases answers.renewalInfo with
    | error message => exact called
    | ok info =>
      exact (called.modify r (Details.withRenewalInfo info) (fun _ => rfl) (fun _ => rfl)).save json _
        allocated (allocated r member) (.inl member) touched
  · exact .refl allocated

/-- A call made after some isolating steps. -/
theorem Isolated.after {w₁ : World (JsonStore Ref)}
    {result : World (JsonStore Ref) × Outcome (TlsCertificate K)} (allocated : Allocated w)
    (first : Isolates p now saved w w₁) (second : Isolated crypto p now saved w₁ result) :
    Isolated crypto p now saved w result := by
  refine ⟨first.trans allocated second.toIsolates,fun key returned => ?_⟩
  obtain ⟨r,parsed,own | ⟨bare,member⟩⟩ := second.returned key returned
  · exact ⟨r,parsed,.inl own⟩
  · obtain ⟨older,held | own⟩ := first.stored r member
    · exact ⟨r,parsed,.inr ⟨bare,held⟩⟩
    · exact ⟨r,parsed,.inl ((second.provider older).trans own)⟩

variable (json m) in
/-- `w₁` is the world in which the certificate `r` was found and its ARI data refreshed. -/
theorem proceed_isolated {w₁ : World (JsonStore Ref)} (supplier : Supplier) (allocated : Allocated w)
    (first : Isolates p answers.now saved w w₁) (member : r ∈ w.store.certificates) (touched : saved r)
    (newest : ∀ q, w.fresh ≤ q → saved q)
    (own : (w.heap r).provider = p ∨ (w.heap r).provider = "") :
    Isolated crypto p answers.now saved w
      (m.proceed crypto (JsonStore.asStore json) answers supplier p subject altNames r w₁) := by
  have bound := Nat.lt_of_lt_of_le (allocated r member) first.grown
  have own' : (w₁.heap r).provider = p ∨
      (w₁.heap r).provider = "" ∧ r ∈ w.store.certificates := by
    rw [first.provider (allocated r member)]
    exact own.imp_right fun bare => ⟨bare,member⟩
  unfold Manager.proceed
  split
  · exact .after allocated first (obtain_isolated json m first.allocated fun q new =>
      newest q (Nat.le_trans first.grown new))
  · split
    · exact ⟨first,fun key returned => by cases returned⟩
    · split
      · unfold Manager.staple
        cases answers.staple with
        | error message => exact ⟨first.call _,fun key returned => by cases returned⟩
        | ok s =>
          have stapled := (first.call (.updateStaple r)).modify r (Details.withStaple s)
            (fun _ => rfl) (fun _ => rfl)
          apply deliver_isolated _ _ allocated stapled bound touched
          rwa [stapled.provider (allocated r member),← first.provider (allocated r member)]
      · exact ⟨first,fun key returned => ⟨r,ofExcept_ok returned,own'⟩⟩

def Saved (p subject : String) (altNames : List String) (w : World (JsonStore Ref)) (r : Ref) : Prop :=
  w.store.getCertificate w.heap p subject altNames = some r ∨ w.fresh ≤ r

theorem getCertificate_isolated (allocated : Allocated w)
    (resolved : m.supplier preferredSupplier = .ok (supplier,p)) :
    Isolated crypto p answers.now (Saved p subject altNames w) w
      (m.getCertificate crypto (JsonStore.asStore json) answers preferredSupplier subject altNames w) := by
  have locked : Isolates p answers.now (Saved p subject altNames w) w
      (w.call (.lockCertificate subject altNames)) := (Isolates.refl allocated).call _
  have body : Isolated crypto p answers.now (Saved p subject altNames w) w
      (m.getLocked crypto (JsonStore.asStore json) answers supplier p subject altNames
        (w.call (.lockCertificate subject altNames))) := by
    rw [Manager.getLocked,lookup_json,World.heap_call,World.store_call]
    cases found : w.store.getCertificate w.heap p subject altNames with
    | none =>
      exact .after allocated locked (obtain_isolated json m allocated fun _ new => .inr new)
    | some r =>
      obtain ⟨member,own⟩ := selectCertificate_own found
      have refreshed := locked.trans allocated
        (refresh_isolates json locked.allocated member (.inl found))
      exact proceed_isolated json m supplier allocated refreshed member (.inl found)
        (fun _ new => .inr new) own
  rw [Manager.getCertificate,resolved]
  exact ⟨body.toIsolates.call _,body.returned⟩

end Calls

def Existing.outcome : Existing K → Outcome (TlsCertificate K)
  | .found key _ => .ok key
  | .missing _ message => .err message
  | .crashed => .crashed

inductive ManagerCall where
  | getCertificate (answers : Answers Unit WriteFile) (preferredSupplier subject : String)
      (altNames : List String)
  | getExistingCertificate (now : Int) (preferredSupplier subject : String) (altNames : List String)

namespace ManagerCall

def now : ManagerCall → Int
  | .getCertificate answers _ _ _ => answers.now
  | .getExistingCertificate now _ _ _ => now

def preferredSupplier : ManagerCall → String
  | .getCertificate _ preferredSupplier _ _ => preferredSupplier
  | .getExistingCertificate _ preferredSupplier _ _ => preferredSupplier

def lookup (p : String) (w : World (JsonStore Ref)) : ManagerCall → Option Ref
  | .getCertificate _ _ subject altNames => w.store.getCertificate w.heap p subject altNames
  | .getExistingCertificate _ _ subject altNames => w.store.getCertificate w.heap p subject altNames

variable (json : Json) (crypto : Crypto K) (m : Manager)

def apply (w : World (JsonStore Ref)) :
    ManagerCall → World (JsonStore Ref) × Outcome (TlsCertificate K)
  | .getCertificate answers preferredSupplier subject altNames =>
    m.getCertificate crypto (JsonStore.asStore json) answers preferredSupplier subject altNames w
  | .getExistingCertificate now preferredSupplier subject altNames =>
    let (w,existing) := m.getExistingCertificate crypto (JsonStore.asStore json) now ()
      preferredSupplier subject altNames w
    (w,existing.outcome)

/-- A run ends with the first panic. -/
def machine : Machine (World (JsonStore Ref)) ManagerCall where
  Enabled w c := (c.apply json crypto m w).2 ≠ .crashed
  next w c := (c.apply json crypto m w).1

variable {json crypto m} {w : World (JsonStore Ref)}

theorem lookup_mem (c : ManagerCall) (found : c.lookup p w = some r) :
    r ∈ w.store.certificates ∧ ((w.heap r).provider = p ∨ (w.heap r).provider = "") := by
  cases c with
  | getCertificate => exact selectCertificate_own found
  | getExistingCertificate => exact selectCertificate_own found

theorem apply_unresolved (c : ManagerCall) (unresolved : m.supplier c.preferredSupplier = .error message) :
    c.apply json crypto m w = (w,.err message) := by
  cases c with
  | getCertificate answers preferredSupplier subject altNames =>
    have resolved : m.supplier preferredSupplier = .error message := unresolved
    simp [apply,Manager.getCertificate,resolved]
  | getExistingCertificate now preferredSupplier subject altNames =>
    have resolved : m.supplier preferredSupplier = .error message := unresolved
    simp [apply,Manager.getExistingCertificate,resolved,Existing.outcome]

theorem apply_isolated (c : ManagerCall) (allocated : Allocated w)
    (resolved : m.supplier c.preferredSupplier = .ok (supplier,p)) :
    Isolated crypto p c.now (fun r => c.lookup p w = some r ∨ w.fresh ≤ r) w
      (c.apply json crypto m w) := by
  cases c with
  | getCertificate answers preferredSupplier subject altNames =>
    exact getCertificate_isolated allocated resolved
  | getExistingCertificate now preferredSupplier subject altNames =>
    rcases called : m.getExistingCertificate crypto (JsonStore.asStore json) now () preferredSupplier
      subject altNames w with ⟨left,existing⟩
    obtain ⟨rfl,found⟩ := existing_spec called
    simp only [apply,called]
    refine ⟨.refl allocated,fun key returned => ?_⟩
    cases existing with
    | found key' renewal =>
      obtain rfl : key' = key := by simpa [Existing.outcome] using returned
      obtain ⟨supplier',name,r,resolved',answer,parsed⟩ := found key' renewal rfl
      obtain ⟨rfl,rfl⟩ : supplier = supplier' ∧ p = name := by simpa using resolved.symm.trans resolved'
      obtain ⟨member,own⟩ := selectCertificate_own answer
      exact ⟨r,parsed,own.imp_right fun bare => ⟨bare,member⟩⟩
    | missing renewal message => cases returned
    | crashed => cases returned

end ManagerCall

structure Inherits (start w : World (JsonStore Ref)) : Prop where
  allocated : Allocated w
  legacy : ∀ q ∈ w.store.certificates, (w.heap q).provider = "" → q ∈ start.store.certificates

theorem Inherits.apply {m : Manager} (named : m.suppliers "" = none) (inherits : Inherits start w)
    (c : ManagerCall) : Inherits start (c.apply json crypto m w).1 := by
  cases resolved : m.supplier c.preferredSupplier with
  | error message =>
    rw [c.apply_unresolved resolved]
    exact inherits
  | ok chosen =>
    obtain ⟨supplier,p⟩ := chosen
    have isolated : Isolated crypto p c.now _ w (c.apply json crypto m w) :=
      c.apply_isolated inherits.allocated resolved
    have isolates := isolated.toIsolates
    refine ⟨isolates.allocated,fun q member bare => ?_⟩
    rcases (isolates.stored q member).2 with held | own
    · refine inherits.legacy q held ?_
      rw [← isolates.provider (inherits.allocated q held)]
      exact bare
    · have known := Manager.supplier_known resolved
      rw [← own,bare,named] at known
      cases known

/-- Providers do not get in each other's way, whatever was stored at the start. After any
run of calls, certificates without a provider are old ones, and a further call relabels
nothing, returns a key pair of the supplier it resolves to or of an old certificate
without provider, and removes an unexpired certificate only if it is its supplier's own,
or a second one without provider for the names of the one the call refreshes. -/
theorem providers_isolated (json : Json) (crypto : Crypto K) (m : Manager)
    (named : m.suppliers "" = none) (start : JsonWorld) (calls : List ManagerCall)
    (w : World (JsonStore Ref))
    (run : (ManagerCall.machine json crypto m).Run start.toWorld calls w) (c : ManagerCall) :
    (∀ q ∈ (c.apply json crypto m w).1.store.certificates,
      ((c.apply json crypto m w).1.heap q).provider = "" → q ∈ start.store.certificates) ∧
    (∀ q < w.fresh, ((c.apply json crypto m w).1.heap q).provider = (w.heap q).provider) ∧
    (∀ supplier p key, m.supplier c.preferredSupplier = .ok (supplier,p) →
      (c.apply json crypto m w).2 = .ok key →
      ∃ r, ((c.apply json crypto m w).1.heap r).keyPair crypto = .ok key ∧
        (((c.apply json crypto m w).1.heap r).provider = p ∨
          ((c.apply json crypto m w).1.heap r).provider = "" ∧ r ∈ start.store.certificates)) ∧
    ∀ q ∈ w.store.certificates, c.now < (w.heap q).notAfter →
      q ∉ (c.apply json crypto m w).1.store.certificates →
      ∃ supplier p, m.supplier c.preferredSupplier = .ok (supplier,p) ∧
        ((w.heap q).provider = p ∨ (w.heap q).provider = "" ∧ ∃ r, r ≠ q ∧ c.lookup p w = some r ∧
          (w.heap r).provider = "" ∧ (w.heap r).isFor (w.heap q).subject (w.heap q).altNames = true) := by
  have inherits : Inherits start.toWorld w :=
    run.invariant (Inherits start.toWorld) (fun u c held _ => held.apply named c)
      ⟨start.allocated,fun _ member _ => member⟩
  refine ⟨(inherits.apply named c).legacy,?_⟩
  cases resolved : m.supplier c.preferredSupplier with
  | error message =>
    rw [c.apply_unresolved resolved]
    exact ⟨fun _ _ => rfl,fun _ _ _ none' => (by cases none'),fun q member _ gone => absurd member gone⟩
  | ok chosen =>
    obtain ⟨supplier,p⟩ := chosen
    have isolated : Isolated crypto p c.now _ w (c.apply json crypto m w) :=
      c.apply_isolated inherits.allocated resolved
    refine ⟨fun q => isolated.provider,?_,?_⟩
    · rintro _ _ key ⟨rfl,rfl⟩ returned
      obtain ⟨r,parsed,own | ⟨bare,member⟩⟩ := isolated.returned key returned
      · exact ⟨r,parsed,.inl own⟩
      · refine ⟨r,parsed,.inr ⟨bare,inherits.legacy r member ?_⟩⟩
        rw [← isolated.provider (inherits.allocated r member)]
        exact bare
    · intro q member alive gone
      refine ⟨supplier,p,rfl,?_⟩
      have older := inherits.allocated q member
      obtain ⟨r,bound,ne,found | new,same⟩ := (isolated.kept q member alive).resolve_left gone
      · obtain ⟨held,own⟩ := c.lookup_mem found
        rw [isolated.keys r (inherits.allocated r held),isolated.keys q older] at same
        obtain ⟨provider,names⟩ := (Details.key_eq_key_iff (w.heap r) (w.heap q)).mp same
        rcases own with own | bare
        · exact .inl (provider.symm.trans own)
        · exact .inr ⟨provider.symm.trans bare,r,ne,found,bare,names⟩
      · have provider := congrArg Prod.fst same
        refine .inl ?_
        rw [← isolated.provider older]
        exact provider.symm.trans (isolated.newest r bound new)

namespace Sample

def twoSuppliers : Manager where
  shouldStaple := false
  suppliers name :=
    if name = "lego" then some ⟨24 * 30 * hour,24 * hour⟩
    else if name = "selfsigned" then some ⟨24 * 7 * hour,hour⟩
    else none
  supplierPreference := ["lego","selfsigned"]

def mixed : JsonWorld :=
  { heap := fun r => if r = 0 then (stored 0 0).withProvider "" else (stored 0 0).withProvider "selfsigned"
    fresh := 2,store := ⟨[0,1],none⟩,calls := [],allocated := by decide }

def mixedJson : Json :=
  .ofTable [] [([(stored 0 0).withProvider "",(stored 0 0).withProvider "selfsigned",stored 0 0],"[three]")]
    noneAlone (by decide +kernel)

def order : ManagerCall :=
  .getCertificate { Manager.unreachable (leafNotAfter - 24 * 20 * hour) with issued := .ok (stored 0 0) }
    "lego" "example.com" []

def ordered : World (JsonStore Ref) := (order.apply mixedJson crypto twoSuppliers mixed.toWorld).1

def reordered : World (JsonStore Ref) := (order.apply mixedJson crypto twoSuppliers ordered).1

/-- Its second certificate takes the place of its first, and of no other. -/
theorem reorder_isolated :
    ordered.store.certificates = [0,1,2] ∧ reordered.store.certificates = [0,1,3] ∧
    (∀ q < 3, (reordered.heap q).provider = (ordered.heap q).provider) ∧
    ∀ q ∈ ordered.store.certificates, q ∉ reordered.store.certificates → (ordered.heap q).provider = "lego" := by
  -- The orders are evaluated together, as each evaluation reads the certificate's text.
  obtain ⟨lives,first,second,made,alive,labelled⟩ :
      (order.apply mixedJson crypto twoSuppliers mixed.toWorld).2 ≠ .crashed ∧
      ordered.store.certificates = [0,1,2] ∧ reordered.store.certificates = [0,1,3] ∧ 3 ≤ ordered.fresh ∧
      (∀ q ∈ ordered.store.certificates, order.now < (ordered.heap q).notAfter) ∧
      ∀ r, order.lookup "lego" ordered = some r → (ordered.heap r).provider = "lego" := by decide +kernel
  have run : (ManagerCall.machine mixedJson crypto twoSuppliers).Run mixed.toWorld [order] ordered := .cons lives .nil
  have known : twoSuppliers.supplier order.preferredSupplier = .ok (⟨24 * 30 * hour,24 * hour⟩,"lego") := by decide
  obtain ⟨_,labels,_,removed⟩ := providers_isolated mixedJson crypto twoSuppliers (by decide) mixed [order] ordered run order
  refine ⟨first,second,fun q early => labels q (Nat.lt_of_lt_of_le early made),fun q member gone => ?_⟩
  obtain ⟨supplier,p,resolved,own⟩ := removed q member (alive q member) gone
  obtain ⟨rfl,rfl⟩ := Prod.mk.inj (Except.ok.inj (known.symm.trans resolved))
  rcases own with own | ⟨_,r,_,found,bare,_⟩
  · exact own
  · exact absurd ((labelled r found).symm.trans bare) (by decide)

end Sample

end Centauri
