import Centauri.Machine
import Centauri.RouteRenewal

/-! Two calls of `GetCertificate` on one file store. The mutex of a certificate is looked up in
a map that nothing guards, under a key that lists the names in the order of the call, when it
is locked and once more when it is unlocked. -/
namespace Centauri.JsonLocks

abbrev Mutex := Nat

/-- The map of a `JsonStore`. A mutex is made for one key. -/
structure Locks where
  find : String → Option Mutex
  created : Mutex
  older : ∀ key mutex, find key = some mutex → mutex < created
  own : ∀ key other mutex, find key = some mutex → find other = some mutex → key = other

def lockKey (subject : String) (altNames : List String) : String := ";".intercalate (subject :: altNames)

namespace Locks

def none : Locks := ⟨fun _ => .none,0,by simp,by simp⟩

def create (key : String) (locks : Locks) : Locks where
  find := Function.update locks.find key (some locks.created)
  created := locks.created + 1
  older other mutex found := by
    by_cases same : other = key
    · subst same
      rw [Function.update_self] at found
      cases found
      exact Nat.lt_succ_self _
    · rw [Function.update_of_ne same] at found
      exact Nat.lt_succ_of_lt (locks.older other mutex found)
  own := by
    have new {other : String} {mutex : Mutex}
        (found : Function.update locks.find key (some locks.created) other = some mutex) :
        other = key ∧ mutex = locks.created ∨ mutex < locks.created ∧ locks.find other = some mutex := by
      by_cases same : other = key
      · subst same
        rw [Function.update_self] at found
        exact .inl ⟨rfl,(Option.some.inj found).symm⟩
      · rw [Function.update_of_ne same] at found
        exact .inr ⟨locks.older other mutex found,found⟩
    intro left right mutex found found'
    rcases new found with ⟨rfl,rfl⟩ | ⟨old,found⟩ <;> rcases new found' with ⟨rfl,same⟩ | ⟨old',found'⟩
    · rfl
    · exact absurd old' (Nat.lt_irrefl _)
    · rw [same] at old
      exact absurd old (Nat.lt_irrefl _)
    · exact locks.own left right mutex found found'

@[simp] theorem find_create_self (key : String) (locks : Locks) :
    (locks.create key).find key = some locks.created := Function.update_self ..

theorem find_create_of_ne (ne : other ≠ key) (locks : Locks) : (locks.create key).find other = locks.find other :=
  Function.update_of_ne ne ..

end Locks

structure Ask where
  preferredSupplier : String
  subject : String
  altNames : List String

def Ask.key (ask : Ask) : String := lockKey ask.subject ask.altNames

/-- Where a call stands between its lock and its unlock; `resaving`, `restapling` and `saving`
are about to save. -/
inductive Section (K : Type) where
  | reading
  | found (cert : Ref)
  | resaving (cert : Ref)
  | checking (cert : Ref)
  | stapling (cert : Ref)
  | restapling (cert : Ref)
  | obtaining
  | annotating (cert : Ref)
  | saving (cert : Ref)
  | done (result : Outcome (TlsCertificate K))
  deriving DecidableEq

/-- Where a call stands. `creating` and `recreating` found no mutex in the map, one before the
lock and the other before the unlock. -/
inductive Phase (K : Type) where
  | idle
  | creating
  | waiting (mutex : Mutex)
  | inside (position : Section K)
  | recreating (result : Outcome (TlsCertificate K))
  | unlocking (mutex : Mutex) (result : Outcome (TlsCertificate K))
  | returned (result : Outcome (TlsCertificate K))
  deriving DecidableEq

/-- The two calls are `false` and `true`; `used` is the mutex that `LockCertificate` took. -/
structure State (K : Type) where
  locks : Locks
  locked : Mutex → Bool
  world : World (JsonStore Ref)
  phase : Bool → Phase K
  used : Bool → Option Mutex
  /-- Certificates the supplier has issued. -/
  issued : List Ref

abbrev Event := Bool × Answers Unit WriteFile

section Model

variable {K : Type} (json : Json) (crypto : Crypto K) (m : Manager) (asks : Bool → Ask)

def Section.step (supplier : Supplier) (name : String) (ask : Ask) (answers : Answers Unit WriteFile)
    (w : World (JsonStore Ref)) : Section K → World (JsonStore Ref) × Section K × List Ref
  | .reading =>
    match Manager.lookup (JsonStore.asStore json) answers.lookup name ask.subject ask.altNames w with
    | (w,none) => (w,.obtaining,[])
    | (w,some cert) => (w,.found cert,[])
  | .found cert =>
    if (w.heap cert).ariNextUpdate < answers.now then
      let w := w.call (.updateRenewalInfo cert)
      match answers.renewalInfo with
      | .error _ => (w,.checking cert,[])
      | .ok info => (w.modify cert (Details.withRenewalInfo info),.resaving cert,[])
    else (w,.checking cert,[])
  | .resaving cert =>
    ((Manager.save (JsonStore.asStore json) answers.now answers.saveRenewalInfo cert w).1,.checking cert,[])
  | .checking cert =>
    if (w.heap cert).shouldRenew answers.now supplier.minCertificateValidity then (w,.obtaining,[])
    else
      match (w.heap cert).requiresStaple crypto with
      | none => (w,.done .crashed,[])
      | some required =>
        if required && !(w.heap cert).hasStapleFor answers.now supplier.minStapleValidity then
          (w,.stapling cert,[])
        else (w,.done (.ofExcept ((w.heap cert).keyPair crypto)),[])
  | .stapling cert =>
    let w := w.call (.updateStaple cert)
    match answers.staple with
    | .error message =>
      (w,.done (.err ("failed to obtain OCSP staple for " ++ (w.heap cert).subject ++ ": " ++ message)),[])
    | .ok s => (w.modify cert (Details.withStaple s),.restapling cert,[])
  | .restapling cert =>
    let (w,result) := Manager.deliver crypto (JsonStore.asStore json) answers.now answers.saveStaple
      (w.heap cert).subject cert w
    (w,.done result,[])
  | .obtaining =>
    let w := w.call (.getCertificate ask.subject ask.altNames m.shouldStaple)
    match answers.issued with
    | .error message =>
      (w,.done (.err ("failed to obtain certificate for " ++ ask.subject ++ ": " ++ message)),[])
    | .ok details =>
      ((w.alloc details).modify w.fresh (Details.withProvider name),.annotating w.fresh,[w.fresh])
  | .annotating cert =>
    (Manager.updateRenewalInfo (JsonStore.asStore json) answers.now answers.issuedRenewalInfo none cert w,
      .saving cert,[])
  | .saving cert =>
    let (w,result) := Manager.deliver crypto (JsonStore.asStore json) answers.now answers.saveIssued
      ask.subject cert w
    (w,.done result,[])
  | .done result => (w,.done result,[])

def State.at (s : State K) (g : Bool) (phase : Phase K) : State K :=
  { s with phase := Function.update s.phase g phase }

def State.called (s : State K) (g : Bool) (mutex : Mutex) (locks : Locks) : State K :=
  { s.at g (.waiting mutex) with locks := locks,used := Function.update s.used g (some mutex) }

def State.mutexFor (s : State K) (g : Bool) : Option Mutex := s.locks.find (asks g).key

/-- The next step of a call, or `none` while it waits for its mutex and after it has returned.
To unlock a mutex that nobody has locked is fatal. -/
def State.step (s : State K) (g : Bool) (answers : Answers Unit WriteFile) : Option (State K) :=
  match m.supplier (asks g).preferredSupplier with
  | .error message =>
    match s.phase g with
    | .idle => some (s.at g (.returned (.err message)))
    | _ => none
  | .ok (supplier,name) =>
    match s.phase g with
    | .idle =>
      match s.mutexFor asks g with
      | some mutex => some (s.called g mutex s.locks)
      | none => some (s.at g .creating)
    | .creating => some (s.called g s.locks.created (s.locks.create (asks g).key))
    | .waiting mutex =>
      if s.locked mutex then none
      else some { s.at g (.inside .reading) with
        locked := Function.update s.locked mutex true
        world := s.world.call (.lockCertificate (asks g).subject (asks g).altNames) }
    | .inside (.done result) =>
      match s.mutexFor asks g with
      | some mutex => some (s.at g (.unlocking mutex result))
      | none => some (s.at g (.recreating result))
    | .inside position =>
      let (world,position,issued) := position.step json crypto m supplier name (asks g) answers s.world
      some { s.at g (.inside position) with world := world,issued := s.issued ++ issued }
    | .recreating result =>
      some { s.at g (.unlocking s.locks.created result) with locks := s.locks.create (asks g).key }
    | .unlocking mutex result =>
      if s.locked mutex then
        some { s.at g (.returned result) with
          locked := Function.update s.locked mutex false
          world := s.world.call (.unlockCertificate (asks g).subject (asks g).altNames) }
      else some (s.at g (.returned .crashed))
    | .returned _ => none

def machine : Machine (State K) Event where
  Enabled s event := (s.step json crypto m asks event.1 event.2).isSome = true
  next s event := (s.step json crypto m asks event.1 event.2).getD s

instance (s : State K) (event : Event) : Decidable ((machine json crypto m asks).Enabled s event) :=
  inferInstanceAs (Decidable (_ = true))

inductive Moved (g : Bool) (answers : Answers Unit WriteFile) (s : State K) : State K → Prop where
  | refused : m.supplier (asks g).preferredSupplier = .error message → s.phase g = .idle →
      Moved g answers s (s.at g (.returned (.err message)))
  | found : s.phase g = .idle → s.mutexFor asks g = some mutex → Moved g answers s (s.called g mutex s.locks)
  | missed : s.phase g = .idle → s.mutexFor asks g = none → Moved g answers s (s.at g .creating)
  | created : s.phase g = .creating →
      Moved g answers s (s.called g s.locks.created (s.locks.create (asks g).key))
  | acquired : s.phase g = .waiting mutex → s.locked mutex = false →
      Moved g answers s { s.at g (.inside .reading) with
        locked := Function.update s.locked mutex true
        world := s.world.call (.lockCertificate (asks g).subject (asks g).altNames) }
  | worked : m.supplier (asks g).preferredSupplier = .ok (supplier,name) →
      s.phase g = .inside position → (∀ result, position ≠ .done result) →
      position.step json crypto m supplier name (asks g) answers s.world = (world,after,issued) →
      Moved g answers s { s.at g (.inside after) with world := world,issued := s.issued ++ issued }
  | left : s.phase g = .inside (.done result) → s.mutexFor asks g = some mutex →
      Moved g answers s (s.at g (.unlocking mutex result))
  | lost : s.phase g = .inside (.done result) → s.mutexFor asks g = none →
      Moved g answers s (s.at g (.recreating result))
  | recreated : s.phase g = .recreating result →
      Moved g answers s { s.at g (.unlocking s.locks.created result) with
        locks := s.locks.create (asks g).key }
  | released : s.phase g = .unlocking mutex result → s.locked mutex = true →
      Moved g answers s { s.at g (.returned result) with
        locked := Function.update s.locked mutex false
        world := s.world.call (.unlockCertificate (asks g).subject (asks g).altNames) }
  | fatal : s.phase g = .unlocking mutex result → s.locked mutex = false →
      Moved g answers s (s.at g (.returned .crashed))

theorem step_moved {s s' : State K} {answers : Answers Unit WriteFile}
    (stepped : s.step json crypto m asks g answers = some s') : Moved json crypto m asks g answers s s' := by
  unfold State.step at stepped
  split at stepped
  next unresolved =>
    split at stepped
    next idle =>
      cases stepped
      exact .refused unresolved idle
    next => cases stepped
  next supplier name resolved =>
  split at stepped
  next idle =>
    split at stepped
    next found =>
      cases stepped
      exact .found idle found
    next missing =>
      cases stepped
      exact .missed idle missing
  next creating =>
    cases stepped
    exact .created creating
  next waiting =>
    split at stepped
    · cases stepped
    next free =>
      cases stepped
      exact .acquired waiting (Bool.eq_false_iff.mpr free)
  next inside =>
    split at stepped
    next found =>
      cases stepped
      exact .left inside found
    next missing =>
      cases stepped
      exact .lost inside missing
  next position busy inside =>
    cases stepped
    exact .worked resolved inside busy rfl
  next recreating =>
    cases stepped
    exact .recreated recreating
  next unlocking =>
    split at stepped
    next locked =>
      cases stepped
      exact .released unlocking locked
    next free =>
      cases stepped
      exact .fatal unlocking (Bool.eq_false_iff.mpr free)
  next => cases stepped

structure Initial (s : State K) : Prop where
  idle : ∀ g, s.phase g = .idle
  free : ∀ mutex, s.locked mutex = false
  unused : ∀ g, s.used g = none
  issued : s.issued = []
  sound : Sound s.world

/-- The supplier issues for the names it is asked for, and what it has issued to one of the
calls is not due for renewal: it has not expired when something is saved, and it is not due
when a call checks it. -/
def Section.Undue (supplier : Supplier) (ask : Ask) (answers : Answers Unit WriteFile)
    (w : World (JsonStore Ref)) (issued : List Ref) : Section K → Prop
  | .obtaining =>
    (match answers.issued with
      | .ok d => d.isFor ask.subject ask.altNames
      | .error _ => true) = true
  | .checking cert => cert ∈ issued →
      (w.heap cert).shouldRenew answers.now supplier.minCertificateValidity = false
  | .resaving _ | .restapling _ | .saving _ => ∀ cert ∈ issued, answers.now < (w.heap cert).notAfter
  | .reading | .found _ | .stapling _ | .annotating _ | .done _ => True

def Phase.Undue (supplier : Supplier) (ask : Ask) (answers : Answers Unit WriteFile)
    (w : World (JsonStore Ref)) (issued : List Ref) : Phase K → Prop
  | .inside position => position.Undue supplier ask answers w issued
  | .idle | .creating | .waiting _ | .recreating _ | .unlocking _ _ | .returned _ => True

def Undue (s : State K) (event : Event) : Prop :=
  match m.supplier (asks event.1).preferredSupplier with
  | .error _ => True
  | .ok (supplier,_) => (s.phase event.1).Undue supplier (asks event.1) event.2 s.world s.issued

instance (supplier : Supplier) (ask : Ask) (answers : Answers Unit WriteFile) (w : World (JsonStore Ref))
    (issued : List Ref) : ∀ position : Section K, Decidable (position.Undue supplier ask answers w issued)
  | .obtaining => inferInstanceAs (Decidable (_ = true))
  | .checking cert => inferInstanceAs (Decidable (cert ∈ issued → _ = false))
  | .resaving _ | .restapling _ | .saving _ =>
    inferInstanceAs (Decidable (∀ cert ∈ issued, answers.now < (w.heap cert).notAfter))
  | .reading | .found _ | .stapling _ | .annotating _ | .done _ => inferInstanceAs (Decidable True)

instance (supplier : Supplier) (ask : Ask) (answers : Answers Unit WriteFile) (w : World (JsonStore Ref))
    (issued : List Ref) : ∀ phase : Phase K, Decidable (phase.Undue supplier ask answers w issued)
  | .inside position => inferInstanceAs (Decidable (position.Undue supplier ask answers w issued))
  | .idle | .creating | .waiting _ | .recreating _ | .unlocking _ _ | .returned _ =>
    inferInstanceAs (Decidable True)

instance (s : State K) (event : Event) : Decidable (Undue m asks s event) :=
  match resolved : m.supplier (asks event.1).preferredSupplier with
  | .error _ => .isTrue (by rw [Undue,resolved]; trivial)
  | .ok (supplier,_) =>
    decidable_of_iff ((s.phase event.1).Undue supplier (asks event.1) event.2 s.world s.issued)
      (by rw [Undue,resolved])

abbrev undueMachine : Machine (State K) Event := (machine json crypto m asks).restrict (Undue m asks)

theorem undue_outside {s : State K} {g : Bool} (answers : Answers Unit WriteFile)
    (outside : ∀ position, s.phase g = .inside position → ∃ result, position = .done result) :
    Undue m asks s (g,answers) := by
  unfold Undue
  split
  · trivial
  · dsimp only
    generalize s.phase g = phase at outside
    cases phase with
    | inside position =>
      obtain ⟨result,rfl⟩ := outside position rfl
      trivial
    | _ => trivial

end Model

variable {K : Type} {json : Json} {crypto : Crypto K} {m : Manager} {asks : Bool → Ask} {s s' : State K}
  {answers : Answers Unit WriteFile}

@[simp] theorem at_self (s : State K) (g : Bool) (phase : Phase K) : (s.at g phase).phase g = phase :=
  Function.update_self ..

@[simp] theorem at_other (s : State K) (g : Bool) (phase : Phase K) : (s.at g phase).phase (!g) = s.phase !g :=
  Function.update_of_ne (Bool.not_ne_self g) ..

/-- Of two calls, one moves and the other does not. -/
theorem mover_or_other {P : Bool → Prop} (g : Bool) (mover : P g) (other : P !g) (h : Bool) : P h := by
  by_cases same : h = g
  · rw [same]
    exact mover
  · rw [Bool.eq_not.mpr same]
    exact other

/-- A property of both calls, after one of them has moved. -/
theorem forall_at {P : Phase K → Prop} (g : Bool) (moved : P phase) (other : P (s.phase !g)) :
    ∀ h, P ((s.at g phase).phase h) := by
  refine mover_or_other g ?_ ?_
  · rw [at_self]
    exact moved
  · rw [at_other]
    exact other

namespace Phase

def Fits (mutex : Mutex) : Phase K → Prop
  | .creating | .recreating _ => False
  | .waiting taken | .unlocking taken _ => taken = mutex
  | .idle | .inside _ | .returned _ => True

def isInside : Phase K → Bool
  | .inside _ | .recreating _ | .unlocking _ _ => true
  | .idle | .creating | .waiting _ | .returned _ => false

end Phase

def Apart (s : State K) : Prop := ∀ g, (s.phase g).isInside = true → (s.phase !g).isInside = false

/-- One call has moved; the other is outside if that one is inside now. -/
theorem Apart.at (g : Bool) (alone : phase.isInside = true → (s.phase !g).isInside = false) :
    Apart (s.at g phase) := by
  refine mover_or_other g ?_ ?_
  · rw [at_self,at_other]
    exact alone
  · rw [Bool.not_not,at_self,at_other]
    intro inside
    rw [Bool.eq_false_iff]
    intro both
    rw [alone both] at inside
    cases inside

variable (asks) in
/-- Both calls use one mutex, which was there before them. -/
structure Guarded (mutex : Mutex) (s : State K) : Prop where
  found : ∀ g, s.mutexFor asks g = some mutex
  fits : ∀ g, (s.phase g).Fits mutex
  used : ∀ g taken, s.used g = some taken → taken = mutex
  held : ∀ g, (s.phase g).isInside = true → s.locked mutex = true
  apart : Apart s

/-- A step that neither locks nor unlocks. -/
theorem Guarded.at (guarded : Guarded asks mutex s) (g : Bool) (phase : Phase K) (fits : phase.Fits mutex)
    (still : phase.isInside = true → (s.phase g).isInside = true) : Guarded asks mutex (s.at g phase) := by
  refine ⟨guarded.found,forall_at g fits (guarded.fits !g),guarded.used,?_,?_⟩
  · exact forall_at (P := fun phase => phase.isInside = true → s.locked mutex = true) g
      (fun inside => guarded.held g (still inside)) (guarded.held !g)
  · exact Apart.at g fun inside => guarded.apart g (still inside)

theorem Guarded.step (guarded : Guarded asks mutex s)
    (stepped : s.step json crypto m asks g answers = some s') : Guarded asks mutex s' := by
  have fits := guarded.fits g
  have there := guarded.found g
  cases step_moved json crypto m asks stepped with
  | refused _ idle => exact guarded.at g _ trivial (by simp [Phase.isInside])
  | found idle found =>
    cases found.symm.trans there
    have base := guarded.at g (.waiting mutex) rfl (by simp [Phase.isInside])
    refine ⟨base.found,base.fits,?_,base.held,base.apart⟩
    refine mover_or_other g (fun taken used => ?_) fun taken used => guarded.used (!g) taken ?_
    · exact Option.some.inj (used.symm.trans (Function.update_self ..))
    · exact (Function.update_of_ne (Bool.not_ne_self g) ..).symm.trans used
  | acquired waiting free =>
    rw [waiting] at fits
    cases fits
    have outside : (s.phase !g).isInside = false := by
      rw [Bool.eq_false_iff]
      intro inside
      rw [guarded.held _ inside] at free
      cases free
    refine ⟨guarded.found,forall_at g trivial (guarded.fits !g),guarded.used,fun _ _ => Function.update_self ..,?_⟩
    exact Apart.at g fun _ => outside
  | @worked supplier name position world after issued resolved inside busy done =>
    have base := guarded.at g (.inside after) trivial fun _ => by rw [inside]; rfl
    exact ⟨base.found,base.fits,base.used,base.held,base.apart⟩
  | left inside found =>
    cases found.symm.trans there
    exact guarded.at g _ rfl fun _ => by rw [inside]; rfl
  | released unlocking locked =>
    have own : (s.phase g).isInside = true := by rw [unlocking]; rfl
    rw [unlocking] at fits
    cases fits
    have outside := guarded.apart g own
    refine ⟨guarded.found,forall_at g trivial (guarded.fits !g),guarded.used,?_,?_⟩
    · refine forall_at (P := fun phase => phase.isInside = true → _) g (fun inside => by cases inside) ?_
      intro inside
      rw [outside] at inside
      cases inside
    · exact Apart.at g fun inside => by cases inside
  | fatal unlocking free =>
    have locked := guarded.held g (by rw [unlocking]; rfl)
    rw [unlocking] at fits
    cases fits
    rw [free] at locked
    cases locked
  -- The mutex is in the map, so nothing is ever put there.
  | created creating =>
    rw [creating] at fits
    exact fits.elim
  | recreated recreating =>
    rw [recreating] at fits
    exact fits.elim
  | missed _ missing | lost _ missing =>
    rw [missing] at there
    cases there

section Doors

variable {supplier : Supplier} {name : String} {g : Bool} {mutex : Mutex}

theorem reaches_single (stepped : s.step json crypto m asks g answers = some s')
    (undue : Undue m asks s (g,answers)) :
    (undueMachine json crypto m asks).Reaches s s' := by
  have enabled : (undueMachine json crypto m asks).Enabled s (g,answers) :=
    ⟨Option.isSome_of_eq_some stepped,undue⟩
  have reached := Machine.Reaches.single enabled
  rw [show (undueMachine json crypto m asks).next s (g,answers) = s' by
    simp [machine,Machine.restrict,stepped]] at reached
  exact reached

variable (json crypto)

variable (asks) in
def State.entered (s : State K) (g : Bool) (mutex : Mutex) (locks : Locks) : State K :=
  { s.at g (.inside .reading) with
    locks := locks
    locked := Function.update s.locked mutex true
    used := Function.update s.used g (some mutex)
    world := s.world.call (.lockCertificate (asks g).subject (asks g).altNames) }

theorem acquire_reaches (answers : Answers Unit WriteFile) (locks : Locks)
    (resolved : m.supplier (asks g).preferredSupplier = .ok (supplier,name)) (free : s.locked mutex = false) :
    (undueMachine json crypto m asks).Reaches (s.called g mutex locks)
      (s.entered asks g mutex locks) := by
  have waiting : (s.called g mutex locks).phase g = .waiting mutex := at_self ..
  have moved : (s.called g mutex locks).step json crypto m asks g answers = some (s.entered asks g mutex locks) := by
    unfold State.step
    rw [resolved,waiting]
    simp [free,State.entered,State.called,State.at]
  exact reaches_single moved (undue_outside m asks answers (by rw [waiting]; simp))

theorem find_reaches (answers : Answers Unit WriteFile)
    (resolved : m.supplier (asks g).preferredSupplier = .ok (supplier,name)) (idle : s.phase g = .idle)
    (found : s.mutexFor asks g = some mutex) :
    (undueMachine json crypto m asks).Reaches s (s.called g mutex s.locks) := by
  have moved : s.step json crypto m asks g answers = some (s.called g mutex s.locks) := by
    unfold State.step
    rw [resolved,idle]
    simp [found]
  exact reaches_single moved (undue_outside m asks answers (by rw [idle]; simp))

theorem miss_reaches (answers : Answers Unit WriteFile)
    (resolved : m.supplier (asks g).preferredSupplier = .ok (supplier,name)) (idle : s.phase g = .idle)
    (missing : s.mutexFor asks g = none) :
    (undueMachine json crypto m asks).Reaches s (s.at g .creating) := by
  have moved : s.step json crypto m asks g answers = some (s.at g .creating) := by
    unfold State.step
    rw [resolved,idle]
    simp [missing]
  exact reaches_single moved (undue_outside m asks answers (by rw [idle]; simp))

theorem create_reaches (answers : Answers Unit WriteFile)
    (resolved : m.supplier (asks g).preferredSupplier = .ok (supplier,name)) (creating : s.phase g = .creating) :
    (undueMachine json crypto m asks).Reaches s
      (s.called g s.locks.created (s.locks.create (asks g).key)) := by
  have moved : s.step json crypto m asks g answers =
      some (s.called g s.locks.created (s.locks.create (asks g).key)) := by
    unfold State.step
    rw [resolved,creating]
  exact reaches_single moved (undue_outside m asks answers (by rw [creating]; simp))

variable (asks) in
def State.departed (s : State K) (g : Bool) (mutex : Mutex) (result : Outcome (TlsCertificate K)) : State K :=
  { s.at g (.returned result) with
    locked := Function.update s.locked mutex false
    world := s.world.call (.unlockCertificate (asks g).subject (asks g).altNames) }

theorem leave_reaches (answers : Answers Unit WriteFile)
    (resolved : m.supplier (asks g).preferredSupplier = .ok (supplier,name))
    (inside : s.phase g = .inside (.done result)) (found : s.mutexFor asks g = some mutex)
    (locked : s.locked mutex = true) :
    (undueMachine json crypto m asks).Reaches s (s.departed asks g mutex result) := by
  have moved : s.step json crypto m asks g answers = some (s.at g (.unlocking mutex result)) := by
    unfold State.step
    rw [resolved,inside]
    simp [found]
  have leaving := reaches_single moved (undue_outside m asks answers (by rw [inside]; simp))
  have unlocking : (s.at g (.unlocking mutex result)).phase g = .unlocking mutex result := at_self ..
  have released : (s.at g (.unlocking mutex result)).step json crypto m asks g answers =
      some (s.departed asks g mutex result) := by
    unfold State.step
    rw [resolved,unlocking]
    simp [locked,State.departed,State.at]
  exact leaving.trans (reaches_single released (undue_outside m asks answers (by rw [unlocking]; simp)))

end Doors

section Alone

variable {supplier : Supplier} {name : String} {w w' : World (JsonStore Ref)} {position after : Section K}
  {issued new : List Ref} {g : Bool}

def State.working (s : State K) (g : Bool) (position : Section K) (world : World (JsonStore Ref))
    (issued : List Ref) : State K :=
  { s.at g (.inside position) with world := world,issued := issued }

theorem single (stepped : s.step json crypto m asks g answers = some s') :
    (machine json crypto m asks).Reaches s s' := by
  have enabled : (machine json crypto m asks).Enabled s (g,answers) := Option.isSome_of_eq_some stepped
  have reached := Machine.Reaches.single enabled
  rw [show (machine json crypto m asks).next s (g,answers) = s' by simp [machine,stepped]] at reached
  exact reached

theorem step_inside (resolved : m.supplier (asks g).preferredSupplier = .ok (supplier,name))
    (inside : s.phase g = .inside position) (busy : ∀ result, position ≠ .done result)
    (worked : position.step json crypto m supplier name (asks g) answers s.world = (w',after,new)) :
    s.step json crypto m asks g answers =
      some { s.at g (.inside after) with world := w',issued := s.issued ++ new } := by
  have done : s.step json crypto m asks g answers =
      let outcome := position.step json crypto m supplier name (asks g) answers s.world
      some { s.at g (.inside outcome.2.1) with world := outcome.1,issued := s.issued ++ outcome.2.2 } := by
    unfold State.step
    rw [resolved,inside]
    cases position with
    | done result => exact absurd rfl (busy result)
    | _ => rfl
  rw [done,worked]

variable (asks) in
theorem entered_working (s : State K) (g : Bool) (mutex : Mutex) (locks : Locks) :
    (s.entered asks g mutex locks).working g .reading (s.entered asks g mutex locks).world s.issued =
      s.entered asks g mutex locks := by
  simp [State.working,State.entered,State.at]

theorem working_step (s : State K) (issued : List Ref)
    (resolved : m.supplier (asks g).preferredSupplier = .ok (supplier,name))
    (busy : ∀ result, position ≠ .done result)
    (worked : position.step json crypto m supplier name (asks g) answers w = (w',after,new)) :
    (s.working g position w issued).step json crypto m asks g answers =
      some (s.working g after w' (issued ++ new)) := by
  have inside : (s.working g position w issued).phase g = .inside position := at_self ..
  rw [step_inside resolved inside busy worked]
  simp [State.working,State.at]

theorem working_reaches (answers : Answers Unit WriteFile) (s : State K) (issued : List Ref)
    (resolved : m.supplier (asks g).preferredSupplier = .ok (supplier,name))
    (busy : ∀ result, position ≠ .done result)
    (worked : position.step json crypto m supplier name (asks g) answers w = (w',after,new))
    (undue : position.Undue supplier (asks g) answers w issued) :
    (undueMachine json crypto m asks).Reaches (s.working g position w issued)
      (s.working g after w' (issued ++ new)) := by
  refine reaches_single (working_step s issued resolved busy worked) ?_
  have inside : (s.working g position w issued).phase g = .inside position := at_self ..
  unfold Undue
  rw [resolved,inside]
  exact undue

/-- Most steps issue nothing. -/
theorem quiet_reaches (answers : Answers Unit WriteFile) (s : State K) (issued : List Ref)
    (resolved : m.supplier (asks g).preferredSupplier = .ok (supplier,name))
    (busy : ∀ result, position ≠ .done result)
    (worked : position.step json crypto m supplier name (asks g) answers w = (w',after,[]))
    (undue : position.Undue supplier (asks g) answers w issued) :
    (undueMachine json crypto m asks).Reaches (s.working g position w issued) (s.working g after w' issued) := by
  have reached := working_reaches answers s issued resolved busy worked undue
  rwa [List.append_nil] at reached

section Finish

variable (json crypto m) (supplier : Supplier) (name : String) (ask : Ask) (answers : Answers Unit WriteFile)

def Section.finish : Nat → World (JsonStore Ref) → Section K → World (JsonStore Ref) × Section K
  | 0,w,position => (w,position)
  | n + 1,w,position =>
    let (w,position,_) := position.step json crypto m supplier name ask answers w
    finish n w position

theorem finish_done (n : Nat) (w : World (JsonStore Ref)) (result : Outcome (TlsCertificate K)) :
    Section.finish json crypto m supplier name ask answers n w (.done result) = (w,.done result) := by
  induction n with
  | zero => rfl
  | succ n ih => exact ih

variable {json crypto m supplier name ask answers}

theorem finish_step (n : Nat)
    (worked : position.step json crypto m supplier name ask answers w = (w',after,new)) :
    Section.finish json crypto m supplier name ask answers (n + 1) w position =
      Section.finish json crypto m supplier name ask answers n w' after := by
  rw [Section.finish,worked]

theorem finish_obtaining (n : Nat) (w : World (JsonStore Ref)) :
    Section.finish json crypto m supplier name ask answers (n + 3) w (.obtaining : Section K) =
      let outcome := m.obtain crypto (JsonStore.asStore json) answers name ask.subject ask.altNames w
      (outcome.1,.done outcome.2) := by
  unfold Manager.obtain
  cases answered : answers.issued with
  | error message => simp only [Section.finish,Section.step,answered,finish_done]
  | ok details => simp only [Section.finish,Section.step,answered,finish_done]

theorem finish_stapling (n : Nat) (w : World (JsonStore Ref)) (cert : Ref) :
    Section.finish json crypto m supplier name ask answers (n + 2) w (.stapling cert : Section K) =
      let outcome := Manager.staple crypto (JsonStore.asStore json) answers cert w
      (outcome.1,.done outcome.2) := by
  unfold Manager.staple
  cases answered : answers.staple with
  | error message => simp only [Section.finish,Section.step,answered,finish_done]
  | ok staple =>
    have subject : (((w.call (.updateStaple cert)).modify cert (Details.withStaple staple)).heap cert).subject =
        ((w.call (.updateStaple cert)).heap cert).subject := by
      simp [World.modify,Details.withStaple]
    simp only [Section.finish,Section.step,answered,finish_done,subject]

theorem finish_checking (n : Nat) (w : World (JsonStore Ref)) (cert : Ref) :
    Section.finish json crypto m supplier name ask answers (n + 4) w (.checking cert : Section K) =
      let outcome := m.proceed crypto (JsonStore.asStore json) answers supplier name ask.subject ask.altNames
        cert w
      (outcome.1,.done outcome.2) := by
  unfold Manager.proceed
  by_cases due : (w.heap cert).shouldRenew answers.now supplier.minCertificateValidity = true
  · rw [finish_step (n + 3) (by rw [Section.step,if_pos due]),if_pos due]
    exact finish_obtaining n w
  rw [if_neg due]
  cases staple : (w.heap cert).requiresStaple crypto with
  | none =>
    rw [finish_step (n + 3) (by rw [Section.step,if_neg due,staple])]
    exact finish_done ..
  | some required =>
    by_cases short : (required && !(w.heap cert).hasStapleFor answers.now supplier.minStapleValidity) = true
    · rw [finish_step (n + 3) (by simp only [Section.step,if_neg due,staple,if_pos short]; rfl)]
      simp only [if_pos short]
      exact finish_stapling (n + 1) w cert
    · rw [finish_step (n + 3) (by simp only [Section.step,if_neg due,staple,if_neg short]; rfl)]
      simp only [if_neg short]
      exact finish_done ..

theorem finish_found (n : Nat) (w : World (JsonStore Ref)) (cert : Ref) :
    Section.finish json crypto m supplier name ask answers (n + 6) w (.found cert : Section K) =
      let outcome := m.proceed crypto (JsonStore.asStore json) answers supplier name ask.subject ask.altNames
        cert (Manager.refresh (JsonStore.asStore json) answers cert w)
      (outcome.1,.done outcome.2) := by
  unfold Manager.refresh Manager.updateRenewalInfo
  by_cases stale : (w.heap cert).ariNextUpdate < answers.now
  · rw [if_pos stale]
    cases answered : answers.renewalInfo with
    | error message =>
      rw [finish_step (n + 5) (by simp only [Section.step,if_pos stale,answered]; rfl)]
      exact finish_checking (n + 1) _ cert
    | ok info =>
      rw [finish_step (n + 5) (by simp only [Section.step,if_pos stale,answered]; rfl),
        finish_step (n + 4) (by rw [Section.step])]
      exact finish_checking n _ cert
  · rw [if_neg stale,finish_step (n + 5) (by rw [Section.step,if_neg stale])]
    exact finish_checking (n + 1) w cert

/-- The steps of a section together are the manager's `getLocked`. -/
theorem finish_reading (w : World (JsonStore Ref)) :
    Section.finish json crypto m supplier name ask answers 7 w (.reading : Section K) =
      let outcome := m.getLocked crypto (JsonStore.asStore json) answers supplier name ask.subject ask.altNames w
      (outcome.1,.done outcome.2) := by
  unfold Manager.getLocked
  rw [lookup_json]
  cases found : w.store.getCertificate w.heap name ask.subject ask.altNames with
  | none =>
    rw [finish_step 6 (by simp only [Section.step,lookup_json,found]; rfl)]
    exact finish_obtaining 3 w
  | some cert =>
    rw [finish_step 6 (by simp only [Section.step,lookup_json,found]; rfl)]
    exact finish_found 0 w cert

end Finish

section Whole

variable (json crypto) (answers : Answers Unit WriteFile)

theorem finish_reaches (s : State K) (resolved : m.supplier (asks g).preferredSupplier = .ok (supplier,name))
    (n : Nat) (w : World (JsonStore Ref)) (position : Section K) (issued : List Ref) :
    let outcome := Section.finish json crypto m supplier name (asks g) answers n w position
    ∃ issued', (machine json crypto m asks).Reaches (s.working g position w issued)
      (s.working g outcome.2 outcome.1 issued') := by
  induction n generalizing w position issued with
  | zero => exact ⟨issued,.refl⟩
  | succ n ih =>
    by_cases busy : ∀ result, position ≠ .done result
    · cases worked : position.step json crypto m supplier name (asks g) answers w with
      | mk w' rest =>
        obtain ⟨after,new⟩ := rest
        have first := single (working_step s issued resolved busy worked)
        rw [finish_step n worked]
        obtain ⟨issued',rest⟩ := ih w' after (issued ++ new)
        exact ⟨issued',first.trans rest⟩
    · simp only [not_forall,not_not] at busy
      obtain ⟨result,rfl⟩ := busy
      exact ih w (.done result) issued

/-- `lockFor` finds a mutex or makes one, and leaves those of other keys alone. -/
theorem called_reaches (answers : Answers Unit WriteFile)
    (resolved : m.supplier (asks g).preferredSupplier = .ok (supplier,name)) (idle : s.phase g = .idle) :
    ∃ mutex locks, locks.find (asks g).key = some mutex ∧
      (∀ other, other ≠ (asks g).key → locks.find other = s.locks.find other) ∧
      (undueMachine json crypto m asks).Reaches s (s.called g mutex locks) := by
  cases found : s.mutexFor asks g with
  | some mutex => exact ⟨mutex,s.locks,found,fun _ _ => rfl,find_reaches json crypto answers resolved idle found⟩
  | none =>
    have missed := miss_reaches json crypto answers resolved idle found
    have made := create_reaches json crypto answers resolved (at_self s g .creating)
    have same : (s.at g .creating).called g s.locks.created (s.locks.create (asks g).key) =
        s.called g s.locks.created (s.locks.create (asks g).key) := by
      simp [State.called,State.at]
    refine ⟨_,_,s.locks.find_create_self _,fun other ne => Locks.find_create_of_ne ne _,missed.trans ?_⟩
    rw [← same]
    exact made

theorem entered_reaches (answers : Answers Unit WriteFile)
    (resolved : m.supplier (asks g).preferredSupplier = .ok (supplier,name))
    (idle : s.phase g = .idle) (free : ∀ mutex, s.locked mutex = false) :
    ∃ mutex locks, locks.find (asks g).key = some mutex ∧
      (undueMachine json crypto m asks).Reaches s (s.entered asks g mutex locks) := by
  obtain ⟨mutex,locks,found,_,called⟩ := called_reaches json crypto answers resolved idle
  exact ⟨mutex,locks,found,called.trans (acquire_reaches json crypto answers locks resolved (free mutex))⟩

theorem working_leaves (answers : Answers Unit WriteFile) (s : State K) (result : Outcome (TlsCertificate K))
    (w : World (JsonStore Ref)) (issued : List Ref)
    (resolved : m.supplier (asks g).preferredSupplier = .ok (supplier,name))
    (found : s.mutexFor asks g = some mutex) (locked : s.locked mutex = true) :
    (undueMachine json crypto m asks).Reaches (s.working g (.done result) w issued)
      ((s.working g (.done result) w issued).departed asks g mutex result) :=
  leave_reaches json crypto answers resolved (at_self ..) found locked

/-- A call that nobody interrupts is the manager's `GetCertificate`. -/
theorem alone_reaches (resolved : m.supplier (asks g).preferredSupplier = .ok (supplier,name))
    (idle : s.phase g = .idle) (free : ∀ mutex, s.locked mutex = false) :
    let outcome := m.getCertificate crypto (JsonStore.asStore json) answers (asks g).preferredSupplier
      (asks g).subject (asks g).altNames s.world
    ∃ reached, (machine json crypto m asks).Reaches s reached ∧ reached.phase g = .returned outcome.2 ∧
      reached.world = outcome.1 := by
  obtain ⟨mutex,locks,found,entered⟩ := entered_reaches json crypto answers resolved idle free
  obtain ⟨issued,worked⟩ := finish_reaches json crypto answers (s.entered asks g mutex locks) resolved 7
    (s.entered asks g mutex locks).world .reading s.issued
  rw [finish_reading,entered_working] at worked
  dsimp only at worked
  have left (result : Outcome (TlsCertificate K)) (w : World (JsonStore Ref)) :=
    working_leaves json crypto answers (s.entered asks g mutex locks) result w issued resolved found
      (Function.update_self ..)
  refine ⟨_,entered.unrestrict.trans (worked.trans (left _ _).unrestrict),?_,?_⟩
  · rw [Manager.getCertificate,resolved]
    exact at_self ..
  · rw [Manager.getCertificate,resolved]
    rfl

end Whole

end Alone

end Centauri.JsonLocks
