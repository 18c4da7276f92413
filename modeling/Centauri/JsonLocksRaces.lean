import Centauri.JsonLocksSafety

/-! Interleavings of two calls that their mutexes do not prevent, and when there are none. -/
namespace Centauri.JsonLocks

section Mutexes

variable {K : Type} {json : Json} {crypto : Crypto K} {m : Manager} {asks : Bool → Ask} {s : State K}

theorem not_excludes_of_used
    (reaches : (undueMachine json crypto m asks).Reaches s reached)
    (left : reached.used false = some a) (right : reached.used true = some b) (ne : a ≠ b) :
    ¬Excludes json crypto m asks s :=
  fun excludes => ne (excludes.mutex reached reaches.unrestrict a b left right)

/-- Each key has its own mutex. -/
theorem keys_race (initial : Initial s) (resolved : m.supplier (asks false).preferredSupplier = .ok left)
    (resolved' : m.supplier (asks true).preferredSupplier = .ok right)
    (differ : (asks false).key ≠ (asks true).key) : ¬Excludes json crypto m asks s := by
  obtain ⟨mutex,locks,found,_,first⟩ := called_reaches json crypto (Manager.unreachable 0) resolved
    (initial.idle false)
  have idle : (s.called false mutex locks).phase true = .idle :=
    (at_other s false (.waiting mutex)).trans (initial.idle true)
  obtain ⟨mutex',locks',found',others,second⟩ := called_reaches json crypto (Manager.unreachable 0) resolved' idle
  have kept : locks'.find (asks false).key = some mutex := (others _ differ).trans found
  refine not_excludes_of_used (a := mutex) (b := mutex') (first.trans second) ?_ ?_ ?_
  · simp [State.called,State.at]
  · simp [State.called,State.at]
  · rintro rfl
    exact differ (locks'.own _ _ _ kept found')

/-- Both calls find nothing in the map, and each puts its own mutex there. -/
theorem creation_race (initial : Initial s) (resolved : m.supplier (asks false).preferredSupplier = .ok left)
    (resolved' : m.supplier (asks true).preferredSupplier = .ok right)
    (missing : ∀ g, s.mutexFor asks g = none) : ¬Excludes json crypto m asks s := by
  have first := miss_reaches json crypto (Manager.unreachable 0) resolved (initial.idle false) (missing false)
  have idle : (s.at false .creating).phase true = .idle := (at_other s false .creating).trans (initial.idle true)
  have second := miss_reaches json crypto (Manager.unreachable 0) resolved' idle (missing true)
  have creating : ((s.at false .creating).at true .creating).phase false = .creating :=
    (at_other (s.at false .creating) true .creating).trans (at_self ..)
  have third := create_reaches json crypto (Manager.unreachable 0) resolved creating
  generalize made : ((s.at false .creating).at true .creating).called false
    ((s.at false .creating).at true .creating).locks.created
    (((s.at false .creating).at true .creating).locks.create (asks false).key) = s' at third
  have creating' : s'.phase true = .creating := by
    rw [← made]
    exact (at_other ((s.at false .creating).at true .creating) false (.waiting s.locks.created)).trans (at_self ..)
  have fourth := create_reaches json crypto (Manager.unreachable 0) resolved' creating'
  refine not_excludes_of_used (a := s.locks.created) (b := s'.locks.created)
    (first.trans (second.trans (third.trans fourth))) ?_ ?_ ?_
  · rw [← made]
    simp [State.called,State.at]
  · simp [State.called]
  · rw [← made]
    exact Nat.ne_of_lt (Nat.lt_succ_self _)

end Mutexes

section Suppliers

variable {K : Type} {json : Json} {crypto : Crypto K} {m : Manager} {asks : Bool → Ask} {s : State K}
  {supplier : Supplier} {name : String} {g : Bool} {w : World (JsonStore Ref)} {issued : List Ref}
  {now : Int} {d : Details}

def renewing (now : Int) (d : Details) : Answers Unit WriteFile :=
  { Manager.unreachable now with issued := .ok d }

/-- A call that finds no certificate, or one that is due, is about to ask for another. -/
theorem obtaining_reaches (s : State K) (now : Int) (d : Details)
    (resolved : m.supplier (asks g).preferredSupplier = .ok (supplier,name))
    (due : ∀ r, w.store.getCertificate w.heap name (asks g).subject (asks g).altNames = some r →
      r ∉ issued ∧ (w.heap r).shouldRenew now supplier.minCertificateValidity = true) :
    ∃ w', w'.heap = w.heap ∧ w'.store = w.store ∧ w'.fresh = w.fresh ∧
      (undueMachine json crypto m asks).Reaches (s.working g .reading w issued)
        (s.working g .obtaining w' issued) := by
  cases found : w.store.getCertificate w.heap name (asks g).subject (asks g).altNames with
  | none =>
    refine ⟨w,rfl,rfl,rfl,quiet_reaches (renewing now d) s issued resolved (by simp) ?_ trivial⟩
    simp only [Section.step,lookup_json,found]
  | some r =>
    obtain ⟨other,overdue⟩ := due r found
    have first : (undueMachine json crypto m asks).Reaches (s.working g .reading w issued)
        (s.working g (.found r) w issued) := by
      refine quiet_reaches (renewing now d) s issued resolved (by simp) ?_ trivial
      simp only [Section.step,lookup_json,found]
    have last {w' : World (JsonStore Ref)} (heap : w'.heap = w.heap) :
        (undueMachine json crypto m asks).Reaches (s.working g (.checking r) w' issued)
          (s.working g .obtaining w' issued) := by
      refine quiet_reaches (renewing now d) s issued resolved (by simp) ?_ fun own => absurd own other
      rw [Section.step,heap]
      exact if_pos overdue
    by_cases stale : (w.heap r).ariNextUpdate < now
    · refine ⟨w.call (.updateRenewalInfo r),rfl,rfl,rfl,first.trans (.trans ?_ (last rfl))⟩
      refine quiet_reaches (renewing now d) s issued resolved (by simp) ?_ trivial
      rw [Section.step]
      exact if_pos stale
    · refine ⟨w,rfl,rfl,rfl,first.trans (.trans ?_ (last rfl))⟩
      refine quiet_reaches (renewing now d) s issued resolved (by simp) ?_ trivial
      rw [Section.step]
      exact if_neg stale

variable (json crypto) in
/-- The supplier issues. -/
theorem issuing_reaches (s : State K) (now : Int) (issued : List Ref) (w : World (JsonStore Ref))
    (resolved : m.supplier (asks g).preferredSupplier = .ok (supplier,name))
    (named : d.isFor (asks g).subject (asks g).altNames = true) :
    let asked := w.call (.getCertificate (asks g).subject (asks g).altNames m.shouldStaple)
    (undueMachine json crypto m asks).Reaches (s.working g .obtaining w issued)
      (s.working g (.annotating w.fresh) ((asked.alloc d).modify asked.fresh (Details.withProvider name))
        (issued ++ [w.fresh])) :=
  working_reaches (renewing now d) s issued resolved (by simp) rfl named

variable (json crypto) in
/-- What has been issued is saved. -/
theorem saving_reaches (s : State K) (d : Details) (issued : List Ref) (cert : Ref)
    (resolved : m.supplier (asks g).preferredSupplier = .ok (supplier,name)) (annotated : World (JsonStore Ref))
    (done : annotated = Manager.updateRenewalInfo (JsonStore.asStore json) now (.error "timeout") none cert w)
    (undue : ∀ cert ∈ issued, now < (annotated.heap cert).notAfter) :
    ∃ result, (undueMachine json crypto m asks).Reaches (s.working g (.annotating cert) w issued)
      (s.working g (.done result) (Manager.save (JsonStore.asStore json) now .ok cert annotated).1 issued) := by
  have first : (undueMachine json crypto m asks).Reaches (s.working g (.annotating cert) w issued)
      (s.working g (.saving cert) annotated issued) := by
    subst done
    exact quiet_reaches (renewing now d) s issued resolved (by simp) rfl trivial
  refine ⟨(Manager.deliver crypto (JsonStore.asStore json) now .ok (asks g).subject cert annotated).2,first.trans ?_⟩
  rw [← deliver_world json crypto now .ok (asks g).subject cert annotated]
  exact quiet_reaches (renewing now d) s issued resolved (by simp) rfl undue

variable (json crypto) in
/-- A whole section that issues a certificate when all others have expired: they are pruned
from the store. -/
theorem renewed_reaches (s : State K) (resolved : m.supplier (asks g).preferredSupplier = .ok (supplier,name))
    (named : d.isFor (asks g).subject (asks g).altNames = true) (sound : Sound w) (alive : now < d.notAfter)
    (due : ∀ r ∈ w.store.certificates, (w.heap r).notAfter ≤ now ∧
      (w.heap r).shouldRenew now supplier.minCertificateValidity = true) :
    ∃ w' result, Sound w' ∧ (∀ r ∈ w'.store.certificates, (w'.heap r).provider = name) ∧
      (undueMachine json crypto m asks).Reaches (s.working g .reading w [])
        (s.working g (.done result) w' [w.fresh]) := by
  obtain ⟨w₁,heap,store,fresh,obtaining⟩ : ∃ w₁, w₁.heap = w.heap ∧ w₁.store = w.store ∧ w₁.fresh = w.fresh ∧
      (undueMachine json crypto m asks).Reaches (s.working g .reading w []) (s.working g .obtaining w₁ []) :=
    obtaining_reaches s now d resolved fun r found =>
      ⟨List.not_mem_nil,(due r ((getCertificate_eq_some_iff sound.distinct).mp found).1).2⟩
  have issuing := issuing_reaches json crypto s now [] w₁ resolved named
  -- The call to the supplier is logged, and changes nothing else.
  generalize asked : w₁.call (.getCertificate (asks g).subject (asks g).altNames m.shouldStaple) = w₂ at issuing
  dsimp only at issuing
  have heap₂ : w₂.heap = w.heap := by rw [← asked]; exact heap
  have store₂ : w₂.store = w.store := by rw [← asked]; exact store
  have fresh₂ : w₂.fresh = w.fresh := by rw [← asked]; exact fresh
  generalize issued : Manager.updateRenewalInfo (JsonStore.asStore json) now (.error "timeout") none w₂.fresh
    ((w₂.alloc d).modify w₂.fresh (Details.withProvider name)) = w₃
  obtain ⟨store₃,grown,contents,older⟩ := Manager.issue_spec (JsonStore.asStore json) now (.error "timeout") name d
    w₂ w₃ issued.symm
  rw [fresh₂] at issued grown contents older
  rw [store₂] at store₃
  rw [heap₂] at older
  rw [List.nil_append,fresh,fresh₂] at issuing
  have sound₃ : Sound w₃ := sound.beyond store₃ (by rw [grown]; exact Nat.le_succ _) older
  have new : w.fresh < w₃.fresh := by
    rw [grown]
    exact Nat.lt_succ_self _
  obtain ⟨result,saving⟩ := saving_reaches json crypto s d [w.fresh] w.fresh resolved w₃ issued.symm
    (by simpa [contents,Details.issuedAs,Details.withProvider] using alive)
  refine ⟨_,result,sound₃.saved .ok new,fun r member => ?_,obtaining.trans (issuing.trans saving)⟩
  rw [certificates_save,Expiring.mem_save sound₃.distinct] at member
  obtain ⟨rfl | ⟨old,_⟩,unexpired⟩ := member
  · change (w₃.heap w.fresh).provider = name
    rw [contents]
    rfl
  · rw [store₃] at old
    have expired := (due r old).1
    rw [← older r (sound.allocated r old)] at expired
    exact absurd unexpired (Int.not_lt.mpr expired)

/-- Every certificate expires, and is due, at some time. -/
theorem exists_due (minimum : Int) (heap : Ref → Details) (certificates : List Ref) :
    ∃ bound, ∀ now ≥ bound, ∀ r ∈ certificates,
      (heap r).notAfter ≤ now ∧ (heap r).shouldRenew now minimum = true := by
  induction certificates with
  | nil => exact ⟨0,by simp⟩
  | cons r rest ih =>
    obtain ⟨bound,later⟩ := ih
    refine ⟨max bound (max (heap r).notAfter (max ((heap r).notAfter - minimum) ((heap r).ariRenewalTime + 1))),?_⟩
    intro now after q member
    rcases List.mem_cons.mp member with rfl | member
    · refine ⟨by omega,?_⟩
      unfold Details.shouldRenew Details.validFor
      split
      · simp only [Bool.not_eq_true',decide_eq_false_iff_not]
        omega
      · simp only [decide_eq_true_eq]
        omega
    · exact later now (by omega) q member

/-- A certificate of another supplier is not looked up. -/
theorem getCertificate_of_provider {j : JsonStore Ref} {heap : Ref → Details}
    (distinct : Expiring.Distinct (keyOf heap) j.certificates)
    (providers : ∀ r ∈ j.certificates, (heap r).provider = name) (differ : name ≠ name') (tracked : name ≠ "")
    (subject : String) (altNames : List String) : j.getCertificate heap name' subject altNames = none := by
  rw [Option.eq_none_iff_forall_ne_some]
  intro r found
  obtain ⟨member,chosen⟩ := (getCertificate_eq_some_iff distinct).mp found
  have provider : (keyOf heap r).1 = name := providers r member
  rcases chosen with same | ⟨legacy,_⟩
  · rw [same] at provider
    exact differ provider.symm
  · rw [legacy] at provider
    exact tracked provider.symm

variable (json crypto) in
/-- A call issues a certificate and returns; every other is out of the store then. -/
theorem renewal_returns (initial : Initial s) (resolved : m.supplier (asks g).preferredSupplier = .ok (supplier,name))
    (named : d.isFor (asks g).subject (asks g).altNames = true) (alive : now < d.notAfter)
    (due : ∀ r ∈ s.world.store.certificates, (s.world.heap r).notAfter ≤ now ∧
      (s.world.heap r).shouldRenew now supplier.minCertificateValidity = true) :
    ∃ t, (undueMachine json crypto m asks).Reaches s t ∧ t.phase (!g) = .idle ∧
      (∀ mutex, t.locked mutex = false) ∧ t.issued.length = 1 ∧ Sound t.world ∧
      ∀ r ∈ t.world.store.certificates, (t.world.heap r).provider = name := by
  obtain ⟨mutex,locks,found,entered⟩ := entered_reaches json crypto (renewing now d) resolved (initial.idle g)
    initial.free
  have inside := entered_working asks s g mutex locks
  rw [initial.issued] at inside
  generalize within : s.entered asks g mutex locks = t at entered inside
  have sound : Sound t.world := by
    rw [← within]
    exact ⟨initial.sound.distinct,initial.sound.allocated⟩
  have overdue : ∀ r ∈ t.world.store.certificates, (t.world.heap r).notAfter ≤ now ∧
      (t.world.heap r).shouldRenew now supplier.minCertificateValidity = true := by
    rw [← within]
    exact due
  obtain ⟨w,result,kept,providers,renewed⟩ := renewed_reaches json crypto t resolved named sound alive overdue
  rw [inside] at renewed
  have left : (undueMachine json crypto m asks).Reaches (t.working g (.done result) w [t.world.fresh])
      ((t.working g (.done result) w [t.world.fresh]).departed asks g mutex result) := by
    refine working_leaves json crypto (renewing now d) t result w _ resolved ?_ ?_
    · rw [← within]
      exact found
    · rw [← within]
      exact Function.update_self ..
  refine ⟨_,entered.trans (renewed.trans left),?_,fun other => ?_,rfl,⟨kept.distinct,kept.allocated⟩,providers⟩
  · rw [← within]
    exact (at_other _ g _).trans ((at_other _ g _).trans ((at_other _ g _).trans (initial.idle !g)))
  · rw [← within]
    change Function.update (Function.update s.locked mutex true) mutex false other = false
    rw [Function.update_idem,Function.update_apply]
    split
    · rfl
    · exact initial.free other

variable (json crypto) in
/-- A call that finds no certificate has one issued. -/
theorem issues_another (now : Int) (resolved : m.supplier (asks g).preferredSupplier = .ok (supplier,name))
    (idle : s.phase g = .idle) (free : ∀ mutex, s.locked mutex = false)
    (named : d.isFor (asks g).subject (asks g).altNames = true)
    (missing : s.world.store.getCertificate s.world.heap name (asks g).subject (asks g).altNames = none) :
    ∃ t, (undueMachine json crypto m asks).Reaches s t ∧ t.issued.length = s.issued.length + 1 := by
  obtain ⟨mutex,locks,_,entered⟩ := entered_reaches json crypto (renewing now d) resolved idle free
  have inside := entered_working asks s g mutex locks
  rw [← inside] at entered
  have nothing : ∀ r, (s.entered asks g mutex locks).world.store.getCertificate
      (s.entered asks g mutex locks).world.heap name (asks g).subject (asks g).altNames ≠ some r := by
    intro r found
    cases missing.symm.trans found
  obtain ⟨w,_,_,_,obtaining⟩ := obtaining_reaches (s.entered asks g mutex locks) now d resolved
    fun r found => absurd found (nothing r)
  have issuing := issuing_reaches json crypto (s.entered asks g mutex locks) now s.issued w resolved named
  exact ⟨_,entered.trans (obtaining.trans issuing),List.length_append⟩

/-- A call for another supplier than the first one's issues a certificate of its own. -/
theorem suppliers_race (initial : Initial s) (resolved : m.supplier (asks g).preferredSupplier = .ok (supplier,name))
    (resolved' : m.supplier (asks !g).preferredSupplier = .ok (supplier',name')) (differ : name ≠ name')
    (tracked : name ≠ "") (same : ∀ g, d.isFor (asks g).subject (asks g).altNames = true) :
    ¬Excludes json crypto m asks s := by
  obtain ⟨now,due⟩ := exists_due supplier.minCertificateValidity s.world.heap s.world.store.certificates
  have named (g : Bool) : { d with notAfter := now + 1 }.isFor (asks g).subject (asks g).altNames = true := same g
  obtain ⟨t,first,idle,free,one,sound,providers⟩ := renewal_returns json crypto initial resolved (named g)
    (Int.lt_succ now) (due now (Int.le_refl now))
  have missing := getCertificate_of_provider sound.distinct providers differ tracked (asks !g).subject
    (asks !g).altNames
  obtain ⟨u,second,two⟩ := issues_another json crypto now resolved' idle free (named !g) missing
  intro excludes
  have most := excludes.once u (first.trans second)
  rw [two,one] at most
  exact absurd most (by decide)

end Suppliers

section Condition

variable {K : Type} {m : Manager} {asks : Bool → Ask} {s : State K}

variable (m asks) in
/-- Where both calls have a supplier it is the same one, they list the names so that the keys
are equal, and the mutex of the key is in the map before they begin. -/
def Shared (s : State K) : Prop :=
  ∀ left right, m.supplier (asks false).preferredSupplier = .ok left →
    m.supplier (asks true).preferredSupplier = .ok right →
    (asks false).key = (asks true).key ∧ (s.mutexFor asks false).isSome = true ∧ left.2 = right.2

/-- Under one key both calls find the same. -/
theorem mutexFor_eq (key : (asks false).key = (asks true).key) (found : s.mutexFor asks false = there) :
    ∀ g, s.mutexFor asks g = there := by
  refine mover_or_other false found ?_
  unfold State.mutexFor at found ⊢
  rw [Bool.not_false,← key]
  exact found

theorem names_eq (same : ∀ g, (d : Details).isFor (asks g).subject (asks g).altNames = true) (g : Bool) :
    (asks g).names = (d.subject,sortedCopy d.altNames) := by
  obtain ⟨subject,perm⟩ := (Details.isFor_iff ..).mp (same g)
  rw [Ask.names,subject,(sortedCopy_eq_iff _ _).mpr perm]

theorem Shared.excludes (json : Json) (crypto : Crypto K) (shared : Shared m asks s) (initial : Initial s)
    (same : ∀ g, (d : Details).isFor (asks g).subject (asks g).altNames = true) :
    Excludes json crypto m asks s := by
  cases resolved : m.supplier (asks false).preferredSupplier with
  | error message => exact excludes_of_absent (names_eq same) initial resolved
  | ok left =>
    cases resolved' : m.supplier (asks true).preferredSupplier with
    | error message => exact excludes_of_absent (names_eq same) initial resolved'
    | ok right =>
      obtain ⟨key,present,supplier⟩ := shared left right resolved resolved'
      obtain ⟨mutex,found⟩ := Option.isSome_iff_exists.mp present
      have alike : Alike m asks left.2 (d.subject,sortedCopy d.altNames) := by
        refine ⟨names_eq same,mover_or_other false (fun chosen name again => ?_) fun chosen name again => ?_⟩
        · cases resolved.symm.trans again
          rfl
        · cases resolved'.symm.trans again
          exact supplier.symm
      exact excludes_of_guarded alike initial (mutexFor_eq key found)

/-- The mutex excludes the other of two calls for one certificate only under one key that is
in the map already, and for one supplier. -/
theorem excludes_iff_shared (json : Json) (crypto : Crypto K) (initial : Initial s)
    (same : ∃ d : Details, ∀ g, d.isFor (asks g).subject (asks g).altNames = true) :
    Excludes json crypto m asks s ↔ Shared m asks s := by
  obtain ⟨d,same⟩ := same
  refine ⟨fun excludes left right resolved resolved' => ?_,fun shared => shared.excludes json crypto initial same⟩
  have key : (asks false).key = (asks true).key := by
    by_contra differ
    exact keys_race initial resolved resolved' differ excludes
  refine ⟨key,?_,?_⟩
  · rw [Option.isSome_iff_ne_none]
    intro missing
    exact creation_race initial resolved resolved' (mutexFor_eq key missing) excludes
  · by_contra differ
    -- One of two different names is not the empty one of certificates without a provider.
    by_cases legacy : left.2 = ""
    · refine suppliers_race (g := true) initial resolved' resolved (Ne.symm differ) ?_ same excludes
      rw [← legacy]
      exact Ne.symm differ
    · exact suppliers_race (g := false) initial resolved resolved' differ legacy same excludes

end Condition

end Centauri.JsonLocks

namespace Centauri.Sample

open JsonLocks

def permuted : Bool → Ask
  | false => ⟨"","example.com",["a","b"]⟩
  | true => ⟨"","example.com",["b","a"]⟩

def vacant (locks : Locks) : State String :=
  { locks := locks,locked := fun _ => false,world := ⟨fun _ => issued,0,⟨[],none⟩,[]⟩,phase := fun _ => .idle
    used := fun _ => none,issued := [] }

theorem vacant_initial (locks : Locks) : Initial (vacant locks) :=
  ⟨fun _ => rfl,fun _ => rfl,fun _ => rfl,rfl,⟨List.nodup_nil,by simp [vacant]⟩⟩

def threeMonths : Details := { issued with notAfter := 24 * 90 * hour }

/-- Each call is about to ask for a certificate before the other has one. -/
def overlap : List Event :=
  [false,false,false,false,true,true,true,true,false,true].map fun g => (g,renewing 0 threeMonths)

/-- Neither call waits for the other, and both have a certificate issued for the same names. -/
theorem permuted_race :
    Initial (vacant .none) ∧
    (∀ g, threeMonths.isFor (permuted g).subject (permuted g).altNames = true) ∧
    threeMonths.shouldRenew 0 (24 * 30 * hour) = false ∧
    (undueMachine json crypto manager permuted).Allows (vacant .none) overlap ∧
    let reached := (undueMachine json crypto manager permuted).after (vacant .none) overlap
    reached.used false = some 0 ∧ reached.used true = some 1 ∧ (∀ g, (reached.phase g).isInside = true) ∧
      reached.issued = [0,1] := by
  refine ⟨vacant_initial .none,?_⟩
  decide +kernel

/-- A call for the same names in the same order, after an earlier one has made the mutex. -/
theorem repeated_excluded :
    Initial (vacant (Locks.none.create (permuted false).key)) ∧
    Excludes json crypto manager (fun _ => permuted false) (vacant (Locks.none.create (permuted false).key)) := by
  refine ⟨vacant_initial _,(excludes_iff_shared json crypto (vacant_initial _) ⟨threeMonths,?_⟩).mpr ?_⟩
  · decide +kernel
  · intro left right resolved resolved'
    cases resolved.symm.trans resolved'
    exact ⟨rfl,by decide +kernel,rfl⟩

end Centauri.Sample
