import Centauri.IssuanceStore

/-! One certificate for all. Mutual exclusion lets a single call ask the supplier at a
time, and what it saves is found by every later lookup. -/
namespace Centauri.Issuance

open RedisStore

variable {t : Target}

section Phases

variable {K : Type} {crypto : Crypto K} {c d : Details}

namespace Phase

def isCritical : Phase K → Bool
  | .idle | .entering | .returned _ => false
  | _ => true

def cert : Phase K → Option Details
  | .found d | .refreshing d | .resaving d | .checking d | .stapleChecking d | .stapling d
  | .restapling d | .annotating d | .saving d => some d
  | _ => none

def result : Phase K → Option (Outcome (TlsCertificate K))
  | .leaving result | .returned result => some result
  | _ => none

def isUnsaved : Phase K → Bool
  | .annotating _ | .saving _ => true
  | _ => false

def isSupplying : Phase K → Bool
  | .obtaining | .stapling _ | .restapling _ => true
  | _ => false

end Phase

structure Blank (phase : Phase K) : Prop where
  cert : phase.cert = none
  result : ∀ key, phase.result ≠ some (.ok key)

structure Carries (crypto : Crypto K) (c : Details) (phase : Phase K) : Prop where
  cert : ∀ d, phase.cert = some d → d.sansAri = c.sansAri
  result : ∀ key, phase.result = some (.ok key) → c.keyPair crypto = .ok key
  content : phase.isSupplying = false

/-- The certificate in hand is neither due nor short of a staple when it is checked. -/
def notDue (crypto : Crypto K) (t : Target) (now : Int) : Phase K → Action → Bool
  | .checking d,.checkRenew => !d.shouldRenew now t.supplier.minCertificateValidity
  | .stapleChecking d,.checkStaple =>
    d.requiresStaple crypto != some true || d.hasStapleFor now t.supplier.minStapleValidity
  | _,_ => true

theorem notDue_of_empty (phase : Phase K) (action : Action) (empty : phase.cert = none) :
    notDue crypto t now phase action = true := by
  cases phase <;> simp_all [Phase.cert,notDue]

/-- A local step is taken inside the lock and outside a save, and forgets no certificate. -/
theorem step_critical {phase after : Phase K}
    (moved : phase.step crypto t now action = some after) :
    phase.isCritical = true ∧ after.isCritical = true ∧ phase.saves = none ∧
      (phase.isUnsaved = true → after.isUnsaved = true) := by
  unfold Phase.step at moved
  split at moved
  case h_12 => cases moved
  all_goals
    obtain rfl := Option.some.inj moved
    repeat' split
    all_goals simp [Phase.isCritical,Phase.saves,Phase.isUnsaved]

/-- Issuing is the step from `obtaining`. -/
theorem step_issues {phase after : Phase K} (moved : phase.step crypto t now action = some after) :
    action.issues t = [] ∨ ∃ d, action = .getCertificate (.ok d) ∧ phase = .obtaining ∧
      after = .annotating (d.withProvider t.provider) := by
  cases action with
  | getCertificate answer =>
    cases answer with
    | error message => exact .inl rfl
    | ok d =>
      cases phase <;> simp only [Phase.step,reduceCtorEq] at moved
      exact .inr ⟨d,rfl,rfl,(Option.some.inj moved).symm⟩
  | _ => exact .inl rfl

theorem step_blank {phase after : Phase K} (blank : Blank phase)
    (moved : phase.step crypto t now action = some after) (quiet : action.issues t = []) :
    Blank after := by
  have empty := blank.cert
  unfold Phase.step at moved
  split at moved
  case h_12 => cases moved
  case h_9 => simp [Action.issues] at quiet
  case h_8 =>
    obtain rfl := Option.some.inj moved
    exact ⟨rfl,by simp [Phase.result]⟩
  all_goals cases empty

/-- Same key pair as the certificate carried. -/
theorem keyPair_congr {key : TlsCertificate K} (same : d.sansAri = c.sansAri)
    (paired : Outcome.ofExcept (d.keyPair crypto) = .ok key) : c.keyPair crypto = .ok key := by
  have equal : d.sansAri.keyPair crypto = c.sansAri.keyPair crypto :=
    congrArg (fun e => e.keyPair crypto) same
  change d.keyPair crypto = c.keyPair crypto at equal
  rw [equal] at paired
  cases pair : c.keyPair crypto with
  | error message =>
    rw [pair] at paired
    cases paired
  | ok key =>
    rw [pair] at paired
    exact congrArg Except.ok (Outcome.ok.inj paired)

theorem Carries.leaving {result : Outcome (TlsCertificate K)}
    (paired : ∀ key, result = .ok key → c.keyPair crypto = .ok key) :
    Carries crypto c (.leaving result) :=
  ⟨by simp [Phase.cert],fun key eq => paired key (Option.some.inj eq),rfl⟩

/-- A call that carries a certificate not due moves on with it and issues nothing. -/
theorem step_carries {phase after : Phase K} (carries : Carries crypto c phase)
    (moved : phase.step crypto t now action = some after)
    (keeps : notDue crypto t now phase action = true) :
    Carries crypto c after ∧ action.issues t = [] := by
  have content := carries.content
  have hand {next : Phase K} {d e : Details} (before : phase.cert = some d) (at' : next.cert = some e)
      (same : e.sansAri = d.sansAri) (quiet : next.result = none)
      (calm : next.isSupplying = false) : Carries crypto c next :=
    ⟨fun f held => by
        obtain rfl := Option.some.inj (at'.symm.trans held)
        exact same.trans (carries.cert d before),
      fun key eq => by simp [quiet] at eq,calm⟩
  unfold Phase.step at moved
  split at moved
  case h_12 => cases moved
  all_goals obtain rfl := Option.some.inj moved
  case h_1 d =>
    refine ⟨?_,rfl⟩
    split <;> exact hand (d := d) rfl rfl rfl rfl rfl
  case h_2 | h_3 | h_10 | h_11 => exact ⟨hand rfl rfl rfl rfl rfl,rfl⟩
  case h_4 d =>
    simp only [notDue,Bool.not_eq_true'] at keeps
    rw [keeps]
    exact ⟨hand rfl rfl rfl rfl rfl,rfl⟩
  case h_5 d =>
    refine ⟨?_,rfl⟩
    split
    next => exact .leaving (by simp)
    next required needs =>
      split
      next short =>
        simp only [Bool.and_eq_true,Bool.not_eq_true'] at short
        simp [notDue,needs,short] at keeps
      next => exact .leaving fun key paired => keyPair_congr (carries.cert d rfl) paired
  all_goals cases content

/-- A finished save keeps what a call carries, and where it stands towards the lock. -/
theorem saved_carries {phase : Phase K} (carries : Carries crypto c phase) :
    Carries crypto c (phase.saved crypto) := by
  cases phase with
  | resaving d => exact ⟨carries.cert,carries.result,rfl⟩
  | saving d => exact .leaving fun key paired => keyPair_congr (carries.cert d rfl) paired
  | restapling d => exact .leaving fun key paired => keyPair_congr (carries.cert d rfl) paired
  | _ => exact carries

theorem saved_critical (crypto : Crypto K) (phase : Phase K) :
    (phase.saved crypto).isCritical = phase.isCritical := by
  cases phase <;> rfl

theorem saves_cert {phase : Phase K} (saves : phase.saves = some d) : phase.cert = some d := by
  cases phase <;> simp_all [Phase.saves,Phase.cert]

end Phases

section Runs

variable {K P G E : Type} [DecidableEq P] [DecidableEq G] [DecidableEq E]
variable (json : Json) (crypto : Crypto K) (home : G → P) (t : Target)

/-- No lease expires, Redis answers and saves succeed, an issued certificate is never found
due, and other saves are for other names. -/
def Promised (s : State K P G E) : Event G E → Prop
  | .lock event => RedisLock.KeepsLease s.lock event
  | .lookup _ (.error _) | .saveError _ _ | .applied _ _ _ => False
  | .act g action => (∃ d ∈ (s.call g).cert, ∃ c ∈ s.issued, d.sansAri = c.sansAri) →
      notDue crypto t s.saves.clock (s.call g) action = true
  | .save (.read (.inr _) d _) => d.isFor t.subject t.altNames = false
  | _ => True

instance [Fintype G] (s : State K P G E) : ∀ event, Decidable (Promised crypto t s event)
  | .lock event => inferInstanceAs (Decidable (RedisLock.KeepsLease s.lock event))
  | .lookup _ (.error _) | .saveError _ _ | .applied _ _ _ => inferInstanceAs (Decidable False)
  | .act g action => inferInstanceAs (Decidable
      ((∃ d ∈ (s.call g).cert, ∃ c ∈ s.issued, d.sansAri = c.sansAri) →
        notDue crypto t s.saves.clock (s.call g) action = true))
  | .save (.read (.inr _) d _) => inferInstanceAs (Decidable (d.isFor t.subject t.altNames = false))
  | .begin _ _ | .lookup _ (.ok _) | .save (.read (.inl _) _ _) | .save (.tick _)
  | .save (.inspect _) | .save (.exec _ _) | .save (.abandon _) | .unlock _ =>
    inferInstanceAs (Decidable True)

/-- The supplier issues for the names asked for, issued certificates do not expire, and
other saves use other fields. -/
def Undisturbed (s : State K P G E) : Event G E → Prop
  | .act _ action => ∀ d ∈ action.issues t,
      d.isFor t.subject t.altNames = true ∧ s.saves.clock < d.notAfter
  | .save (.tick now) => ∀ c ∈ s.issued, now < c.notAfter
  | .save (.read (.inr _) d _) => RedisStore.field d ≠ t.field
  | _ => True

instance (s : State K P G E) : ∀ event, Decidable (Undisturbed t s event)
  | .act _ action => inferInstanceAs (Decidable (∀ d ∈ action.issues t,
      d.isFor t.subject t.altNames = true ∧ s.saves.clock < d.notAfter))
  | .save (.tick now) => inferInstanceAs (Decidable (∀ c ∈ s.issued, now < c.notAfter))
  | .save (.read (.inr _) d _) => inferInstanceAs (Decidable (RedisStore.field d ≠ t.field))
  | .begin _ _ | .lock _ | .lookup _ _ | .save (.read (.inl _) _ _) | .save (.inspect _)
  | .save (.exec _ _) | .save (.abandon _) | .saveError _ _ | .applied _ _ _ | .unlock _ =>
    inferInstanceAs (Decidable True)

def Provided (s : State K P G E) (event : Event G E) : Prop :=
  Promised crypto t s event ∧ Undisturbed t s event

instance [Fintype G] (s : State K P G E) (event : Event G E) : Decidable (Provided crypto t s event) :=
  inferInstanceAs (Decidable (_ ∧ _))

structure Base (s : State K P G E) : Prop where
  lock : RedisLock.Safe home s.lock
  saves : RedisSaves.Invariant json s.saves
  names : ∀ g, (s.names g).Perm t.altNames
  inside : ∀ g, (s.call g).isCritical = true →
    ∃ own, s.lock.phase g = .holding t.lockKey own
  writer : ∀ g p, s.saves.pending (.inl g) = some p → (s.call g).saves = some p.cert
  foreign : ∀ e p, s.saves.pending (.inr e) = some p →
    p.cert.isFor t.subject t.altNames = false ∧ RedisStore.field p.cert ≠ t.field

structure Before (s : State K P G E) : Prop where
  issued : s.issued = []
  absent : Absent json t s.saves.hash
  blank : ∀ g, Blank (s.call g)

structure After (c : Details) (s : State K P G E) : Prop where
  issued : s.issued = [c]
  ours : Ours t c
  alive : s.saves.clock < c.notAfter
  carries : ∀ g, Carries crypto c (s.call g)
  stored : Present json t c s.saves.hash ∨
    Absent json t s.saves.hash ∧ ∃ g, (s.call g).isUnsaved = true

variable {json crypto home t} {s : State K P G E}

omit [DecidableEq P] [DecidableEq E] in
@[simp] theorem at_call (s : State K P G E) (g : G) (phase : Phase K) :
    (s.at g phase).call g = phase := Function.update_self ..

omit [DecidableEq P] [DecidableEq E] in
@[simp] theorem at_call_other (s : State K P G E) (phase : Phase K) (ne : h ≠ g) :
    (s.at g phase).call h = s.call h := Function.update_of_ne ne ..

omit [DecidableEq P] [DecidableEq E] in
/-- A property of every call survives a step of one that establishes it there. -/
theorem forall_at (property : G → Phase K → Prop) (others : ∀ h, property h (s.call h))
    (here : property g phase) : ∀ h, property h ((s.at g phase).call h) := by
  intro h
  by_cases same : h = g
  · subst same
    rwa [at_call]
  · rw [at_call_other s phase same]
    exact others h

omit [DecidableEq P] [DecidableEq E] in
theorem Base.at (base : Base json home t s) (g : G) (phase : Phase K)
    (inside : phase.isCritical = true →
      ∃ own, s.lock.phase g = .holding t.lockKey own)
    (idle : (s.call g).saves = none) : Base json home t (s.at g phase) where
  lock := base.lock
  saves := base.saves
  names := base.names
  inside := forall_at (fun h phase => phase.isCritical = true →
    ∃ own, s.lock.phase h = .holding t.lockKey own) base.inside inside
  writer := by
    refine forall_at (fun h phase => ∀ p, s.saves.pending (.inl h) = some p →
      phase.saves = some p.cert) base.writer fun p busy => ?_
    have writes := base.writer g p busy
    rw [idle] at writes
    cases writes
  foreign := base.foreign

omit [DecidableEq E] in
theorem Base.lockStep (base : Base json home t s)
    (step : RedisLock.Step home t.keyPrefix s.lock event after)
    (keeps : RedisLock.KeepsLease s.lock event)
    (stays : ∀ g, (s.call g).isCritical = true →
      ∀ subject altNames, event ≠ .unlock g subject altNames) :
    Base json home t { s with lock := after } where
  lock := base.lock.step step keeps
  saves := base.saves
  names := base.names
  inside := fun g critical => by
    obtain ⟨own,holds⟩ := base.inside g critical
    exact ⟨own,RedisLock.holding_kept step holds (stays g critical)⟩
  writer := base.writer
  foreign := base.foreign

omit [DecidableEq P] [DecidableEq G] [DecidableEq E] in
/-- Calls between lookup and unlock exclude each other, and whoever else holds the lock. -/
theorem Base.exclusive (base : Base json home t s) (critical : (s.call h).isCritical = true)
    (holds : s.lock.phase g = .holding t.lockKey own) : h = g := by
  obtain ⟨_,holding⟩ := base.inside h critical
  exact base.lock.unique holding holds

variable (json crypto home t) in
/-- Only its own transaction moves a call that saves. -/
theorem save_call (s : State K P G E) (event : RedisSaves.Event (G ⊕ E)) (g : G) :
    (next json crypto home t s (.save event)).call g = (s.call g).saved crypto ∧
        (∃ d, event = .exec (.inl g) d) ∨
      (next json crypto home t s (.save event)).call g = s.call g ∧
        ∀ d, event ≠ .exec (.inl g) d := by
  cases event with
  | exec w d =>
    cases w with
    | inl h =>
      by_cases same : g = h
      · subst same
        exact .inl ⟨Function.update_self ..,d,rfl⟩
      · refine .inr ⟨Function.update_of_ne same ..,fun e eq => same ?_⟩
        simp only [RedisSaves.Event.exec.injEq,Sum.inl.injEq] at eq
        exact eq.1.symm
    | inr e => exact .inr ⟨rfl,by simp⟩
  | _ => exact .inr ⟨rfl,by simp⟩

theorem Base.saveStep {event : RedisSaves.Event (G ⊕ E)} (base : Base json home t s)
    (owned : Owned s.call event) (enabled : RedisSaves.Enabled json s.saves event)
    (provided : Provided crypto t s (.save event)) :
    Base json home t (next json crypto home t s (.save event)) where
  lock := base.lock
  saves := RedisSaves.step_invariant base.saves enabled
  names := base.names
  inside := fun g critical => by
    apply base.inside
    rcases save_call json crypto home t s event g with ⟨moved,_⟩ | ⟨same,_⟩
    · exact (saved_critical crypto _).symm.trans (moved ▸ critical)
    · rwa [← same]
  writer := fun g p busy => by
    rcases RedisSaves.pending_next enabled busy with ⟨q,before,cert,other⟩ | ⟨stored,rfl⟩
    · rcases save_call json crypto home t s event g with ⟨_,d,own⟩ | ⟨same,_⟩
      · exact absurd own (other d)
      · rw [← cert,← base.writer g q before]
        exact congrArg Phase.saves same
    · exact owned
  foreign := fun e p busy => by
    rcases RedisSaves.pending_next enabled busy with ⟨q,before,cert,_⟩ | ⟨stored,rfl⟩
    · exact cert ▸ base.foreign e q before
    · exact provided

theorem step_base {event : Event G E} (base : Base json home t s)
    (enabled : Enabled json crypto t s event) (provided : Provided crypto t s event) :
    Base json home t (next json crypto home t s event) := by
  cases event with
  | begin g altNames =>
    obtain ⟨outside,perm,free⟩ := enabled
    have idle : (s.call g).saves = none := by
      cases phase : s.call g <;> simp_all [Phase.isOutside,Phase.saves]
    have entered := base.at g .entering (by simp [Phase.isCritical]) idle
    have locking := entered.lockStep (RedisLock.step_of_enabled _ _ free) trivial (by simp)
    refine { locking with names := fun h => ?_ }
    by_cases same : h = g
    · subst same
      simpa [next] using perm
    · simpa [next,same] using base.names h
  | lock event =>
    obtain ⟨internal,free⟩ := enabled
    refine base.lockStep (RedisLock.step_of_enabled _ _ free) provided.1 ?_
    rintro g _ subject altNames rfl
    cases internal
  | lookup g reply =>
    obtain ⟨entering,_,holding⟩ := enabled
    rw [RedisLock.lockKey_perm (base.names g)] at holding
    have holds := (RedisLock.isHolding_iff ..).mp holding
    have idle : (s.call g).saves = none := by
      cases phase : s.call g <;> simp_all [Phase.isEntering,Phase.saves]
    simp only [next]
    split <;> exact base.at g _ (fun _ => holds) idle
  | act g action =>
    obtain ⟨phase,moved⟩ := Option.isSome_iff_exists.mp enabled
    obtain ⟨critical,_,idle,_⟩ := step_critical moved
    have moves := base.at g phase (fun _ => base.inside g critical) idle
    simp only [next,moved]
    exact { moves with }
  | save event => exact base.saveStep enabled.1 enabled.2 provided
  | saveError g message => exact provided.1.elim
  | applied g d message => exact provided.1.elim
  | unlock g =>
    obtain ⟨leaving,free⟩ := enabled
    cases phase : s.call g <;> simp only [phase,Phase.isLeaving,Bool.false_eq_true] at leaving
    next result =>
      have left := base.at g (.returned result) (by simp [Phase.isCritical]) (by simp [phase,Phase.saves])
      simp only [next,phase]
      refine left.lockStep (RedisLock.step_of_enabled _ _ free) trivial ?_
      rintro h critical _ _ eq
      simp only [RedisLock.Event.unlock.injEq] at eq
      obtain rfl := eq.1
      simp [Phase.isCritical] at critical

omit [DecidableEq P] [DecidableEq E] in
theorem Before.at (before : Before json t s) (g : G) (phase : Phase K) (blank : Blank phase) :
    Before json t (s.at g phase) :=
  ⟨before.issued,before.absent,forall_at (fun _ => Blank) before.blank blank⟩

omit [DecidableEq P] [DecidableEq E] in
theorem After.at (after : After json crypto t c s) (g : G) (phase : Phase K)
    (carries : Carries crypto c phase)
    (keeps : (s.call g).isUnsaved = true → phase.isUnsaved = true) :
    After json crypto t c (s.at g phase) := by
  refine ⟨after.issued,after.ours,after.alive,
    forall_at (fun _ => Carries crypto c) after.carries carries,?_⟩
  refine after.stored.imp id fun ⟨absent,h,unsaved⟩ => ⟨absent,h,?_⟩
  by_cases same : h = g
  · subst same
    rw [at_call]
    exact keeps unsaved
  · rwa [at_call_other s phase same]

theorem isUnsaved_critical {phase : Phase K} (unsaved : phase.isUnsaved = true) :
    phase.isCritical = true := by
  cases phase <;> first | rfl | cases unsaved

theorem isSupplying_critical {phase : Phase K} (supplying : phase.isSupplying = true) :
    phase.isCritical = true := by
  cases phase <;> first | rfl | cases supplying

omit [DecidableEq P] [DecidableEq E] in
/-- The first certificate issued is the one every call has to do with from then on. -/
theorem Before.issue (before : Before json t s) (base : Base json home t s)
    (critical : (s.call g).isCritical = true) (ours : Ours t c) (alive : s.saves.clock < c.notAfter) :
    After json crypto t c { s.at g (.annotating c) with issued := s.issued ++ [c] } where
  issued := by simp [before.issued]
  ours := ours
  alive := alive
  carries := fun h => by
    by_cases same : h = g
    · subst same
      show Carries crypto c ((s.at h (.annotating c)).call h)
      rw [at_call]
      exact ⟨by simp [Phase.cert],by simp [Phase.result],rfl⟩
    · show Carries crypto c ((s.at g (.annotating c)).call h)
      rw [at_call_other s _ same]
      have blank := before.blank h
      refine ⟨by simp [blank.cert],fun key ok => absurd ok (blank.result key),?_⟩
      rw [← Bool.not_eq_true]
      intro supplying
      obtain ⟨own,holds⟩ := base.inside g critical
      exact same (base.exclusive (isSupplying_critical supplying) holds)
  stored := .inr ⟨before.absent,g,by
    show ((s.at g (.annotating c)).call g).isUnsaved = true
    rw [at_call]
    rfl⟩

omit [DecidableEq P] [DecidableEq G] [DecidableEq E] in
/-- A save by one of the calls writes the certificate they carry. -/
theorem After.own (after : After json crypto t c s) (base : Base json home t s)
    (busy : s.saves.pending (.inl g) = some p) :
    Present json t c (transaction p.args p.cert p.raw s.saves.hash) := by
  have same := (after.carries g).cert _ (saves_cert (base.writer g p busy))
  refine present_own ?_ (base.saves.encoded _ p busy) after.ours same
  rcases after.stored with present | ⟨absent,_⟩
  · exact present.elsewhere
  · exact fun entry member _ => absent entry member

theorem Before.saveStep {event : RedisSaves.Event (G ⊕ E)} (before : Before json t s)
    (base : Base json home t s) (enabled : RedisSaves.Enabled json s.saves event) :
    Before json t (next json crypto home t s (.save event)) := by
  -- No call has anything to save.
  have idle (g : G) (d : Details) : (s.call g).saves ≠ some d := fun saves => by
    have held := saves_cert saves
    rw [(before.blank g).cert] at held
    cases held
  rcases RedisSaves.hash_next enabled with ⟨hash,quiet⟩ | ⟨w,p,rfl,busy,hash⟩
  · refine ⟨before.issued,hash ▸ before.absent,fun g => ?_⟩
    rcases save_call json crypto home t s event g with ⟨_,d,own⟩ | ⟨same,_⟩
    · exact absurd own (quiet _ d)
    · exact same ▸ before.blank g
  · cases w with
    | inl g => exact absurd (base.writer g p busy) (idle g p.cert)
    | inr e =>
      refine ⟨before.issued,?_,before.blank⟩
      have kept : Absent json t (transaction p.args p.cert p.raw s.saves.hash) :=
        absent_transaction before.absent (base.saves.encoded _ p busy) (base.foreign e p busy).1
      exact hash ▸ kept

theorem After.saveStep {event : RedisSaves.Event (G ⊕ E)} (after : After json crypto t c s)
    (base : Base json home t s) (enabled : RedisSaves.Enabled json s.saves event)
    (provided : Provided crypto t s (.save event)) :
    After json crypto t c (next json crypto home t s (.save event)) where
  issued := after.issued
  ours := after.ours
  alive := by
    rcases RedisSaves.clock_next json s.saves event with same | ticked
    · exact lt_of_eq_of_lt same after.alive
    · have future : ∀ d ∈ s.issued,(RedisSaves.next json s.saves event).clock < d.notAfter := by
        rw [ticked] at provided
        exact provided.2
      exact future c (by simp [after.issued])
  carries := fun g => by
    rcases save_call json crypto home t s event g with ⟨moved,_⟩ | ⟨same,_⟩
    · exact moved ▸ saved_carries (after.carries g)
    · exact same ▸ after.carries g
  stored := by
    rcases RedisSaves.hash_next enabled with ⟨hash,quiet⟩ | ⟨w,p,rfl,busy,hash⟩
    · refine after.stored.imp (fun present => hash ▸ present) fun ⟨absent,g,unsaved⟩ =>
        ⟨hash ▸ absent,g,?_⟩
      rcases save_call json crypto home t s event g with ⟨_,d,own⟩ | ⟨same,_⟩
      · exact absurd own (quiet _ d)
      · exact same ▸ unsaved
    · cases w with
      | inl g => exact .inl (hash ▸ after.own base busy)
      | inr e =>
        obtain ⟨foreign,apart⟩ := base.foreign e p busy
        have encoded := base.saves.encoded _ p busy
        refine after.stored.imp (fun present => ?_) fun ⟨absent,unsaved⟩ => ⟨?_,unsaved⟩
        · exact hash ▸ present_transaction present encoded foreign apart after.alive
            (base.saves.stale _ p busy)
        · have kept : Absent json t (transaction p.args p.cert p.raw s.saves.hash) :=
            absent_transaction absent encoded foreign
          exact hash ▸ kept

theorem Before.step {event : Event G E} (before : Before json t s) (base : Base json home t s)
    (enabled : Enabled json crypto t s event) (provided : Provided crypto t s event) :
    Before json t (next json crypto home t s event) ∨
      ∃ c, After json crypto t c (next json crypto home t s event) := by
  cases event with
  | begin g altNames =>
    exact .inl { before.at g .entering ⟨rfl,by simp [Phase.result]⟩ with }
  | lock event => exact .inl { before with }
  | lookup g reply =>
    cases reply with
    | error message => exact provided.1.elim
    | ok stored =>
      simp only [next,absent_lookup before.absent enabled.2.1 (base.names g)]
      exact .inl (before.at g .obtaining ⟨rfl,by simp [Phase.result]⟩)
  | act g action =>
    obtain ⟨phase,moved⟩ := Option.isSome_iff_exists.mp enabled
    simp only [next,moved]
    rcases step_issues moved with quiet | ⟨d,rfl,_,rfl⟩
    · have kept := before.at g phase (step_blank (before.blank g) moved quiet)
      exact .inl { kept with issued := by simp [quiet,before.issued] }
    · obtain ⟨named,alive⟩ := provided.2 _ List.mem_cons_self
      exact .inr ⟨_,before.issue base (step_critical moved).1 ⟨rfl,named⟩ alive⟩
  | save event => exact .inl (before.saveStep base enabled.2)
  | saveError g message => exact provided.1.elim
  | applied g d message => exact provided.1.elim
  | unlock g =>
    cases phase : s.call g <;> simp only [Enabled,phase,Phase.isLeaving,Bool.false_eq_true,false_and]
      at enabled
    next result =>
      simp only [next,phase]
      have blank := before.blank g
      rw [phase] at blank
      exact .inl { before.at g (.returned result) ⟨rfl,blank.result⟩ with }

theorem After.step {event : Event G E} (after : After json crypto t c s) (base : Base json home t s)
    (enabled : Enabled json crypto t s event) (provided : Provided crypto t s event) :
    After json crypto t c (next json crypto home t s event) := by
  cases event with
  | begin g altNames =>
    have unseen : (s.call g).isUnsaved = false := by
      have outside := enabled.1
      cases phase : s.call g <;> simp_all [Phase.isOutside,Phase.isUnsaved]
    exact { after.at g .entering ⟨by simp [Phase.cert],by simp [Phase.result],rfl⟩
      (by simp [unseen]) with }
  | lock event => exact { after with }
  | lookup g reply =>
    obtain ⟨entering,lists,holding⟩ := enabled
    have unseen : (s.call g).isUnsaved = false := by
      cases phase : s.call g <;> simp_all [Phase.isEntering,Phase.isUnsaved]
    cases reply with
    | error message => exact provided.1.elim
    | ok stored =>
      rcases after.stored with present | ⟨_,h,unsaved⟩
      · obtain ⟨d,found,same⟩ := present_lookup present after.ours lists (base.names g)
        simp only [next,found]
        refine after.at g (.found d) ⟨?_,by simp [Phase.result],rfl⟩ (by simp [unseen])
        rintro e ⟨rfl⟩
        exact same
      · -- Somebody has yet to save, and so is inside, as the caller is.
        rw [RedisLock.lockKey_perm (base.names g)] at holding
        obtain ⟨own,holds⟩ := (RedisLock.isHolding_iff ..).mp holding
        obtain rfl := base.exclusive (isUnsaved_critical unsaved) holds
        rw [unseen] at unsaved
        cases unsaved
  | act g action =>
    obtain ⟨phase,moved⟩ := Option.isSome_iff_exists.mp enabled
    have keeps : notDue crypto t s.saves.clock (s.call g) action = true := by
      cases held : (s.call g).cert with
      | none => exact notDue_of_empty _ _ held
      | some d =>
        exact provided.1 ⟨d,held,c,by simp [after.issued],(after.carries g).cert d held⟩
    obtain ⟨carries,quiet⟩ := step_carries (after.carries g) moved keeps
    simp only [next,moved]
    have kept := after.at g phase carries (step_critical moved).2.2.2
    exact { kept with issued := by simp [quiet,after.issued] }
  | save event => exact after.saveStep base enabled.2 provided
  | saveError g message => exact provided.1.elim
  | applied g d message => exact provided.1.elim
  | unlock g =>
    cases phase : s.call g <;> simp only [Enabled,phase,Phase.isLeaving,Bool.false_eq_true,false_and]
      at enabled
    next result =>
      simp only [next,phase]
      have carries := after.carries g
      rw [phase] at carries
      exact { after.at g (.returned result) ⟨by simp [Phase.cert],carries.result,rfl⟩
        (by simp [phase,Phase.isUnsaved]) with }

variable (json crypto home t) in
/-- Either nothing has been issued, or one certificate, which all calls share. -/
structure Invariant (s : State K P G E) : Prop where
  base : Base json home t s
  status : Before json t s ∨ ∃ c, After json crypto t c s

omit [DecidableEq P] [DecidableEq G] [DecidableEq E] in
theorem initial_invariant (initial : Initial json t s) : Invariant json crypto home t s := by
  refine ⟨⟨RedisLock.initial_safe initial.lock,RedisSaves.idle_invariant initial.idle,
    initial.names,fun g critical => ?_,fun g p busy => ?_,fun e p busy => ?_⟩,
    .inl ⟨initial.issued,initial.absent,fun g => ?_⟩⟩
  · simp [initial.call,Phase.isCritical] at critical
  · simp [initial.idle] at busy
  · simp [initial.idle] at busy
  · rw [initial.call g]
    exact ⟨rfl,by simp [Phase.result]⟩

theorem Invariant.step {event : Event G E} (valid : Invariant json crypto home t s)
    (enabled : Enabled json crypto t s event) (provided : Provided crypto t s event) :
    Invariant json crypto home t (next json crypto home t s event) := by
  obtain ⟨base,status⟩ := valid
  refine ⟨step_base base enabled provided,?_⟩
  rcases status with before | ⟨c,after⟩
  · exact before.step base enabled provided
  · exact .inr ⟨c,after.step base enabled provided⟩

/-- At most one certificate is ever issued, and every call that succeeds returns its key
pair, in any interleaving of the calls with each other and with saves of other certificates. -/
theorem no_duplicate_issuance (s reached : State K P G E) (trace : List (Event G E))
    (initial : Initial json t s)
    (run : ((machine json crypto home t).restrict (Provided crypto t)).Run s trace reached) :
    reached.issued.length ≤ 1 ∧ ∀ g key, reached.call g = .returned (.ok key) →
      ∃ c ∈ reached.issued, c.keyPair crypto = .ok key := by
  have valid : Invariant json crypto home t reached := by
    refine run.invariant (Invariant json crypto home t) ?_ (initial_invariant initial)
    exact fun _ _ valid enabled => valid.step enabled.1 enabled.2
  rcases valid.status with before | ⟨c,after⟩
  · refine ⟨by simp [before.issued],fun g key done => ?_⟩
    exact absurd (by rw [done]; rfl) ((before.blank g).result key)
  · refine ⟨by simp [after.issued],fun g key done => ⟨c,by simp [after.issued],?_⟩⟩
    exact (after.carries g).result key (by rw [done]; rfl)

end Runs

open Sample

def target : Target := ⟨"centauri","lego",⟨720 * hour,24 * hour⟩,"example.com",["a","b"]⟩

def fresh (now : Int) : State String P G Unit :=
  ⟨RedisLock.quiet,⟨∅,now,fun _ => none⟩,fun _ => ["a","b"],fun _ => .idle,[]⟩

theorem fresh_initial [DecidableEq P] [DecidableEq G] (json : Json) (now : Int) :
    Initial json target (fresh now : State String P G Unit) :=
  ⟨RedisLock.quiet_initial,fun _ => rfl,fun _ => .refl _,fun _ => rfl,rfl,fun _ member => by cases member⟩

def wanted : Details := bare "lego" "example.com" ["a","b"] (2160 * hour)

def late : RenewalInfo := ⟨2400 * hour,2400 * hour,""⟩

/-- A certificate for other names that joins to the same hash field. -/
def squatter : Details := bare "lego" "example.com;a" ["b"] (2160 * hour)

def bystander : Details := bare "lego" "example.org" [] (4320 * hour)

def wantedText : String := text "lego" "example.com" "[\"a\",\"b\"]" "0001-04-01T00:00:00Z"
def lateText : String := fullText "lego" "" "" "example.com" "[\"a\",\"b\"]" "0001-04-01T00:00:00Z"
  "0001-04-11T00:00:00Z" "0001-04-11T00:00:00Z"
def squatterText : String := text "lego" "example.com;a" "[\"b\"]" "0001-04-01T00:00:00Z"
def bystanderText : String := text "lego" "example.org" "[]" "0001-06-30T00:00:00Z"

def encoding : Json :=
  .ofTable [(wanted,wantedText),(wanted.withRenewalInfo late,lateText),(squatter,squatterText),
    (bystander,bystanderText)] [] (by decide +kernel) noArrays

def opening (token : String) (stored : List Entry) (d : Details) : List (Event Unit Unit) :=
  [.begin () ["a","b"],.lock (.setNX () token .ok),.lock (.store ()),.lookup () (.ok stored),
    .act () (.getCertificate (.ok d))]

def closing (answer : Except String RenewalInfo) (d : Details) : List (Event Unit Unit) :=
  [.act () (.updateRenewalInfo answer),.save (.read (.inl ()) d []),.save (.exec (.inl ()) d),
    .unlock (),.lock (.release () .ok)]

def saving (d : Details) (stored : List Entry) : List (Event Unit Unit) :=
  [.save (.read (.inr ()) d stored),.save (.inspect (.inr ())),.save (.exec (.inr ()) d)]

/-- The squatter takes the field of the certificate issued first. -/
def overwritten : List (Event Unit Unit) :=
  opening "aa" [] wanted ++ closing (.error "no ARI") wanted ++
    saving squatter [⟨"lego;example.com;a;b",wantedText⟩] ++
    opening "bb" [⟨"lego;example.com;a;b",squatterText⟩] wanted

/-- The certificate issued first expires without being due, and is pruned. -/
def lapsed : List (Event Unit Unit) :=
  opening "aa" [] wanted ++ closing (.ok late) (wanted.withRenewalInfo late) ++
    .save (.tick (2280 * hour)) :: saving bystander [⟨"lego;example.com;a;b",lateText⟩] ++
    opening "bb" [⟨"lego;example.org",bystanderText⟩] wanted

/-- The supplier's first certificate is for other names. -/
def misissued : List (Event Unit Unit) :=
  opening "aa" [] bystander ++ closing (.error "no ARI") bystander ++
    opening "bb" [⟨"lego;example.org",bystanderText⟩] wanted

/-- No condition of `Undisturbed` can be dropped. -/
theorem issued_twice : Initial encoding target (fresh 0 : State String Unit Unit Unit) ∧
    ∀ trace ∈ [overwritten,lapsed,misissued], ∃ reached : State String Unit Unit Unit,
      ((machine encoding crypto id target).restrict (Promised crypto target)).Run (fresh 0) trace
        reached ∧ reached.issued.length = 2 := by
  refine ⟨fresh_initial _ _,?_⟩
  have allowed : ∀ trace ∈ [overwritten,lapsed,misissued],
      ((machine encoding crypto id target).restrict (Promised crypto target)).Allows
          (fresh 0 : State String Unit Unit Unit) trace ∧
        ((machine encoding crypto id target).after (fresh 0 : State String Unit Unit Unit)
          trace).issued.length = 2 := by
    decide +kernel
  intro trace member
  obtain ⟨run,twice⟩ := allowed trace member
  exact ⟨_,Machine.run_of_allows run,twice⟩

def genuine : Details := { stored 0 0 with altNames := ["a","b"] }

def info : RenewalInfo := ⟨leafNotAfter - 2154 * hour,leafNotAfter - 720 * hour,""⟩

def genuineText (ariNextUpdate ariRenewalTime : String) : String :=
  fullText "lego" (terminated "\\n" keyLines) (terminated "\\n" certLines) "example.com"
    "[\"a\",\"b\"]" "2018-10-20T19:43:06Z" ariNextUpdate ariRenewalTime

def issuedText : String := genuineText "0001-01-01T00:00:00Z" "0001-01-01T00:00:00Z"
def refreshedText : String := genuineText "2018-07-23T01:43:06Z" "2018-09-20T19:43:06Z"

def genuineEncoding : Json :=
  .ofTable [(genuine,issuedText),(genuine.withRenewalInfo info,refreshedText),
    (bystander,bystanderText)] [] (by decide +kernel) noArrays

/-- Two instances ask at once. One issues and saves; the other waits for the lock, finds
the certificate, refreshes its ARI data and returns the same key pair. -/
def shared : List (Event Bool Unit) :=
  [.begin false ["a","b"],.begin true ["b","a"],.lock (.setNX false "aa" .ok),
    .lock (.setNX true "bb" .ok),.lock (.store false),.lookup false (.ok []),
    .act false (.getCertificate (.ok genuine)),.act false (.updateRenewalInfo (.error "no ARI")),
    .save (.read (.inl false) genuine []),.save (.exec (.inl false) genuine),.unlock false,
    .lock (.release false .ok),.lock (.setNX true "cc" .ok),.lock (.store true),
    .lookup true (.ok [⟨"lego;example.com;a;b",issuedText⟩]),.act true .checkAri,
    .act true (.updateRenewalInfo (.ok info)),
    .save (.read (.inl true) (genuine.withRenewalInfo info) [⟨"lego;example.com;a;b",issuedText⟩]),
    .save (.inspect (.inl true)),.save (.exec (.inl true) (genuine.withRenewalInfo info)),
    .act true .checkRenew,.act true .checkStaple,.unlock true]

def served : State String Bool Bool Unit :=
  (machine genuineEncoding crypto id target).after (fresh (leafNotAfter - 2160 * hour)) shared

theorem shared_key_pair : (∀ g, served.call g = .returned (.ok ⟨certPem,[]⟩)) ∧
    served.issued.length ≤ 1 ∧ ∃ c ∈ served.issued, c.keyPair crypto = .ok ⟨certPem,[]⟩ := by
  have run : ((machine genuineEncoding crypto id target).restrict (Provided crypto target)).Run
      (fresh (leafNotAfter - 2160 * hour)) shared served :=
    Machine.run_of_allows (by decide +kernel)
  have done : ∀ g, served.call g = .returned (.ok ⟨certPem,[]⟩) := by decide +kernel
  obtain ⟨once,same⟩ := no_duplicate_issuance _ served shared (fresh_initial _ _) run
  exact ⟨done,once,same true _ (done true)⟩

end Centauri.Issuance
