import Centauri.JsonLocks

/-! Whether the mutex keeps two calls from asking for one certificate twice. -/
namespace Centauri.JsonLocks

section Effects

variable {K : Type} (json : Json) (crypto : Crypto K) (m : Manager) (supplier : Supplier) (name : String)
  (ask : Ask) (answers : Answers Unit WriteFile)

namespace Section

def cert : Section K → Option Ref
  | .found r | .resaving r | .checking r | .stapling r | .restapling r | .annotating r | .saving r => some r
  | .reading | .obtaining | .done _ => none

def isUnsaved : Section K → Bool
  | .annotating _ | .saving _ => true
  | _ => false

def saves : Section K → Option Ref
  | .resaving r | .restapling r | .saving r => some r
  | _ => none

end Section

inductive Effect (position : Section K) (w w' : World (JsonStore Ref)) (after : Section K) : List Ref → Prop where
  | kept : w'.heap = w.heap → w'.store = w.store → w'.fresh = w.fresh →
      (∀ r, after.cert = some r → position.cert = some r ∨
        position = .reading ∧ w.store.getCertificate w.heap name ask.subject ask.altNames = some r) →
      (after = .obtaining → position = .reading ∧
          w.store.getCertificate w.heap name ask.subject ask.altNames = none ∨
        ∃ r, position = .checking r ∧
          (w.heap r).shouldRenew answers.now supplier.minCertificateValidity = true) →
      (position.isUnsaved = true → after.isUnsaved = true) → Effect position w w' after []
  | rewritten : position.cert = some r → after.cert = some r → (∀ d, (f d).key = d.key) →
      w'.heap = (w.modify r f).heap → w'.store = w.store → w'.fresh = w.fresh →
      (position.isUnsaved = true → after.isUnsaved = true) → Effect position w w' after []
  | saved : position.saves = some r → w' = (Manager.save (JsonStore.asStore json) answers.now how r w).1 →
      (∀ q, after.cert = some q → q = r) → after ≠ .obtaining → Effect position w w' after []
  | issued : position = .obtaining → answers.issued = .ok d → after = .annotating w.fresh →
      w'.heap = Function.update w.heap w.fresh (d.withProvider name) → w'.store = w.store →
      w'.fresh = w.fresh + 1 → Effect position w w' after [w.fresh]

theorem deliver_world (now : Int) (how : WriteFile) (subject : String) (r : Ref) (w : World (JsonStore Ref)) :
    (Manager.deliver crypto (JsonStore.asStore json) now how subject r w).1 =
      (Manager.save (JsonStore.asStore json) now how r w).1 := by
  unfold Manager.deliver
  split
  next saved => rw [saved]
  next saved => rw [saved]

variable {json crypto m supplier name ask answers} {position after : Section K} {w w' : World (JsonStore Ref)}
  {new : List Ref}

theorem step_effect (worked : position.step json crypto m supplier name ask answers w = (w',after,new)) :
    Effect json supplier name ask answers position w w' after new := by
  cases position with
  | reading =>
    rw [Section.step,lookup_json] at worked
    cases found : w.store.getCertificate w.heap name ask.subject ask.altNames with
    | none =>
      rw [found] at worked
      cases worked
      exact .kept rfl rfl rfl (by simp [Section.cert]) (fun _ => .inl ⟨rfl,found⟩) (by simp [Section.isUnsaved])
    | some cert =>
      rw [found] at worked
      cases worked
      refine .kept rfl rfl rfl (fun r hand => .inr ⟨rfl,?_⟩) (by simp) (by simp [Section.isUnsaved])
      cases hand
      exact found
  | found cert =>
    simp only [Section.step] at worked
    split at worked
    · split at worked
      · cases worked
        exact .kept rfl rfl rfl (fun r hand => .inl hand) (by simp) (by simp [Section.isUnsaved])
      next info _ =>
        cases worked
        exact .rewritten (f := Details.withRenewalInfo info) rfl rfl (fun _ => rfl) rfl rfl rfl
          (by simp [Section.isUnsaved])
    · cases worked
      exact .kept rfl rfl rfl (fun r hand => .inl hand) (by simp) (by simp [Section.isUnsaved])
  | resaving cert =>
    cases worked
    exact .saved rfl rfl (by simp [Section.cert]) (by simp)
  | checking cert =>
    simp only [Section.step] at worked
    split at worked
    next due =>
      cases worked
      exact .kept rfl rfl rfl (by simp [Section.cert]) (fun _ => .inr ⟨cert,rfl,due⟩) (by simp [Section.isUnsaved])
    split at worked
    · cases worked
      exact .kept rfl rfl rfl (by simp [Section.cert]) (by simp) (by simp [Section.isUnsaved])
    split at worked
    · cases worked
      exact .kept rfl rfl rfl (fun r hand => .inl hand) (by simp) (by simp [Section.isUnsaved])
    · cases worked
      exact .kept rfl rfl rfl (by simp [Section.cert]) (by simp) (by simp [Section.isUnsaved])
  | stapling cert =>
    simp only [Section.step] at worked
    split at worked
    · cases worked
      exact .kept rfl rfl rfl (by simp [Section.cert]) (by simp) (by simp [Section.isUnsaved])
    next staple _ =>
      cases worked
      exact .rewritten (f := Details.withStaple staple) rfl rfl (fun _ => rfl) rfl rfl rfl
        (by simp [Section.isUnsaved])
  | restapling cert =>
    cases worked
    exact .saved rfl (deliver_world ..) (by simp [Section.cert]) (by simp)
  | obtaining =>
    simp only [Section.step] at worked
    split at worked
    · cases worked
      exact .kept rfl rfl rfl (by simp [Section.cert]) (by simp) (by simp [Section.isUnsaved])
    next details answered =>
      cases worked
      refine .issued rfl answered rfl ?_ rfl rfl
      simp [World.modify,World.alloc,World.call]
  | annotating cert =>
    simp only [Section.step,Manager.updateRenewalInfo] at worked
    split at worked
    · cases worked
      exact .kept rfl rfl rfl (fun r hand => .inl hand) (by simp) (fun _ => rfl)
    next info _ =>
      cases worked
      exact .rewritten (f := Details.withRenewalInfo info) rfl rfl (fun _ => rfl) rfl rfl rfl (fun _ => rfl)
  | saving cert =>
    cases worked
    exact .saved rfl (deliver_world ..) (by simp [Section.cert]) (by simp)
  | done result =>
    cases worked
    exact .kept rfl rfl rfl (by simp [Section.cert]) (by simp) (by simp [Section.isUnsaved])

theorem saves_cert (saves : position.saves = some r) : position.cert = some r := by
  cases position <;> simp_all [Section.saves,Section.cert]

/-- The store stays sound, and a call has its hands on allocated certificates only. -/
theorem Effect.sound (effect : Effect json supplier name ask answers position w w' after new) (sound : Sound w)
    (hand : ∀ r, position.cert = some r → r < w.fresh) :
    Sound w' ∧ w.fresh ≤ w'.fresh ∧ ∀ r, after.cert = some r → r < w'.fresh := by
  cases effect with
  | kept heap store fresh hands _ _ =>
    refine ⟨⟨by rw [heap,store]; exact sound.distinct,by rw [store,fresh]; exact sound.allocated⟩,
      Nat.le_of_eq fresh.symm,fun r held => ?_⟩
    rw [fresh]
    rcases hands r held with same | ⟨_,found⟩
    · exact hand r same
    · exact sound.allocated r ((getCertificate_eq_some_iff sound.distinct).mp found).1
  | @rewritten r f own kept key heap store fresh _ =>
    have modified := sound.modify f key r
    refine ⟨⟨by rw [heap,store]; exact modified.distinct,by rw [store,fresh]; exact sound.allocated⟩,
      Nat.le_of_eq fresh.symm,fun q held => ?_⟩
    cases kept.symm.trans held
    rw [fresh]
    exact hand r own
  | @saved r how saves world hands _ =>
    subst world
    refine ⟨sound.saved how (hand r (saves_cert saves)),Nat.le_refl _,fun q held => ?_⟩
    rw [hands q held]
    exact hand r (saves_cert saves)
  | issued _ _ there heap store fresh =>
    have older : ∀ q < w.fresh, w'.heap q = w.heap q := by
      intro q older
      rw [heap]
      exact Function.update_of_ne (Nat.ne_of_lt older) ..
    have grown : w.fresh < w'.fresh := by
      rw [fresh]
      exact Nat.lt_succ_self _
    refine ⟨sound.beyond store (Nat.le_of_lt grown) older,Nat.le_of_lt grown,fun r held => ?_⟩
    rw [there] at held
    cases held
    exact grown

/-- Issuing is the step from `obtaining`. -/
theorem Effect.issues (effect : Effect json supplier name ask answers position w w' after new) :
    new = [] ∨ position = .obtaining ∧ new = [w.fresh] ∧ after = .annotating w.fresh ∧ w.fresh < w'.fresh ∧
      ∃ d, answers.issued = .ok d ∧ w'.heap w.fresh = d.withProvider name := by
  cases effect with
  | kept => exact .inl rfl
  | rewritten => exact .inl rfl
  | saved => exact .inl rfl
  | @issued d obtaining answered there heap store fresh =>
    refine .inr ⟨obtaining,rfl,there,?_,d,answered,?_⟩
    · rw [fresh]
      exact Nat.lt_succ_self _
    · rw [heap]
      exact Function.update_self ..

variable (name ask) in
/-- The store keeps the issued certificate `c`, unless a call is about to save it; a call has
to do with no other, and is not about to ask for another. -/
structure Holding (c : Ref) (position : Section K) (w : World (JsonStore Ref)) : Prop where
  older : c < w.fresh
  ours : keyOf w.heap c = (name,ask.subject,sortedCopy ask.altNames)
  calm : position ≠ .obtaining
  hand : ∀ r, position.cert = some r → r = c
  stored : c ∈ w.store.certificates ∨ position.isUnsaved = true

theorem Holding.found (holding : Holding name ask c (.reading : Section K) w) (sound : Sound w) :
    w.store.getCertificate w.heap name ask.subject ask.altNames = some c := by
  have stored : c ∈ w.store.certificates := holding.stored.resolve_right (by simp [Section.isUnsaved])
  exact (getCertificate_eq_some_iff sound.distinct).mpr ⟨stored,.inl holding.ours⟩

/-- A call that holds a certificate which is not due goes on with it and issues nothing. -/
theorem Effect.holding (effect : Effect json supplier name ask answers position w w' after new) (sound : Sound w)
    (holding : Holding name ask c position w) (undue : position.Undue supplier ask answers w [c]) :
    Holding name ask c after w' ∧ new = [] := by
  cases effect with
  | kept heap store fresh hands obtains unsaved =>
    refine ⟨⟨by rw [fresh]; exact holding.older,by rw [heap]; exact holding.ours,?_,?_,?_⟩,rfl⟩
    · intro obtaining
      rcases obtains obtaining with ⟨rfl,none⟩ | ⟨r,rfl,due⟩
      · rw [holding.found sound] at none
        cases none
      · have same := holding.hand r rfl
        subst same
        rw [undue List.mem_cons_self] at due
        cases due
    · intro r held
      rcases hands r held with own | ⟨rfl,found⟩
      · exact holding.hand r own
      · exact Option.some.inj (found.symm.trans (holding.found sound))
    · rw [store]
      exact holding.stored.imp_right unsaved
  | @rewritten r f own kept key heap store fresh unsaved =>
    refine ⟨⟨by rw [fresh]; exact holding.older,?_,?_,?_,?_⟩,rfl⟩
    · rw [heap,keyOf_modify f key]
      exact holding.ours
    · rintro rfl
      cases kept
    · intro q held
      cases kept.symm.trans held
      exact holding.hand r own
    · rw [store]
      exact holding.stored.imp_right unsaved
  | @saved r how saves world hands calm =>
    have same := holding.hand r (saves_cert saves)
    subst same world
    have alive : answers.now < (w.heap r).notAfter := by
      cases position <;> simp [Section.saves] at saves
      all_goals exact undue r List.mem_cons_self
    refine ⟨⟨holding.older,holding.ours,calm,hands,.inl ?_⟩,rfl⟩
    rw [certificates_save]
    exact Expiring.mem_save_self alive
  | issued obtaining => exact absurd obtaining holding.calm

end Effects

def Ask.names (ask : Ask) : String × List String := (ask.subject,sortedCopy ask.altNames)

section Once

variable {K : Type} {json : Json} {crypto : Crypto K} {m : Manager} {asks : Bool → Ask} {s s' : State K}
  {answers : Answers Unit WriteFile} {name : String} {names : String × List String} {g : Bool}

variable (name names) in
structure Issued (c : Ref) (s : State K) : Prop where
  issued : s.issued = [c]
  older : c < s.world.fresh
  ours : keyOf s.world.heap c = (name,names)
  calm : ∀ g position, s.phase g = .inside position → position ≠ .obtaining ∧ ∀ r, position.cert = some r → r = c
  stored : c ∈ s.world.store.certificates ∨ ∃ g position, s.phase g = .inside position ∧ position.isUnsaved = true

variable (name names) in
structure Once (s : State K) : Prop where
  sound : Sound s.world
  hands : ∀ g position r, s.phase g = .inside position → position.cert = some r → r < s.world.fresh
  status : s.issued = [] ∨ ∃ c, Issued name names c s

theorem at_inside {phase : Phase K} : ∀ h, (s.at g phase).phase h = .inside position →
    h = g ∧ phase = .inside position ∨ h = !g ∧ s.phase (!g) = .inside position := by
  refine mover_or_other g (fun inside => .inl ⟨rfl,?_⟩) fun inside => .inr ⟨rfl,?_⟩
  · rw [at_self] at inside
    exact inside
  · rw [at_other] at inside
    exact inside

/-- A call on its way through the lock. -/
theorem Once.pass (once : Once name names s) (g : Bool) {phase : Phase K} {locks : Locks} {locked : Mutex → Bool}
    {used : Bool → Option Mutex} {world : World (JsonStore Ref)} (heap : world.heap = s.world.heap)
    (store : world.store = s.world.store) (fresh : world.fresh = s.world.fresh)
    (before : ∀ position, s.phase g = .inside position → position.isUnsaved = false)
    (after : ∀ position, phase = .inside position → position = .reading) :
    Once name names { s.at g phase with locks := locks,locked := locked,used := used,world := world } := by
  refine ⟨⟨?_,?_⟩,fun h position r inside held => ?_,once.status.imp_right ?_⟩
  · dsimp only
    rw [heap,store]
    exact once.sound.distinct
  · dsimp only
    rw [store,fresh]
    exact once.sound.allocated
  · dsimp only
    rw [fresh]
    rcases at_inside _ inside with ⟨rfl,here⟩ | ⟨rfl,there⟩
    · rw [after position here] at held
      cases held
    · exact once.hands _ position r there held
  · rintro ⟨c,issued⟩
    refine ⟨c,issued.issued,by dsimp only; rw [fresh]; exact issued.older,
      by dsimp only; rw [heap]; exact issued.ours,fun h position inside => ?_,?_⟩
    · rcases at_inside _ inside with ⟨rfl,here⟩ | ⟨rfl,there⟩
      · rw [after position here]
        exact ⟨by simp,by simp [Section.cert]⟩
      · exact issued.calm _ position there
    · dsimp only
      rw [store]
      refine issued.stored.imp_right ?_
      rintro ⟨h,position,inside,unsaved⟩
      revert h
      refine mover_or_other g (fun inside => ?_) fun inside => ?_
      · rw [before position inside] at unsaved
        cases unsaved
      · exact ⟨!g,position,(at_other ..).trans inside,unsaved⟩

/-- A call at work, while the other is outside. -/
theorem Once.work (once : Once name names s) (apart : Apart s) (inside : s.phase g = .inside position)
    (alike : (asks g).names = names)
    (effect : Effect json supplier name (asks g) answers position s.world world after new)
    (undue : position.Undue supplier (asks g) answers s.world s.issued) :
    Once name names { s.at g (.inside after) with world := world,issued := s.issued ++ new } := by
  have outside : (s.phase !g).isInside = false := apart g (by rw [inside]; rfl)
  have here {h : Bool} {at' : Section K} (moved : (s.at g (.inside after)).phase h = .inside at') : at' = after := by
    rcases at_inside _ moved with ⟨_,same⟩ | ⟨_,there⟩
    · cases same
      rfl
    · rw [there] at outside
      cases outside
  obtain ⟨sound,grown,hands⟩ := effect.sound once.sound fun r held => once.hands g position r inside held
  refine ⟨sound,fun h at' r moved held => ?_,?_⟩
  · rw [here moved] at held
    exact hands r held
  rcases once.status with none | ⟨c,issued⟩
  · rcases effect.issues with quiet | ⟨rfl,new,there,older,d,answered,contents⟩
    · exact .inl (by simp [none,quiet])
    have named : d.isFor (asks g).subject (asks g).altNames = true := by
      unfold Section.Undue at undue
      rw [answered] at undue
      exact undue
    refine .inr ⟨s.world.fresh,by simp [none,new],older,?_,fun h at' moved => ?_,.inr ?_⟩
    · rw [← alike]
      refine (keyOf_eq_iff _ _ name (asks g).subject (asks g).altNames).mpr ?_
      dsimp only
      rw [contents]
      exact ⟨rfl,named⟩
    · rw [here moved,there]
      exact ⟨by simp,fun r held => (Option.some.inj held).symm⟩
    · exact ⟨g,after,at_self ..,by rw [there]; rfl⟩
  · have stored : c ∈ s.world.store.certificates ∨ position.isUnsaved = true := by
      refine issued.stored.imp_right ?_
      rintro ⟨h,at',there,unsaved⟩
      revert h
      refine mover_or_other g (fun here => ?_) fun there => ?_
      · cases inside.symm.trans here
        exact unsaved
      · rw [there] at outside
        cases outside
    have holding : Holding name (asks g) c position s.world :=
      ⟨issued.older,by rw [issued.ours,← alike]; rfl,(issued.calm g position inside).1,
        (issued.calm g position inside).2,stored⟩
    rw [issued.issued] at undue
    obtain ⟨left,quiet⟩ := effect.holding once.sound holding undue
    refine .inr ⟨c,by simp [issued.issued,quiet],left.older,left.ours.trans (by rw [← alike]; rfl),
      fun h at' moved => ?_,left.stored.imp_right fun unsaved => ⟨g,after,at_self ..,unsaved⟩⟩
    rw [here moved]
    exact ⟨left.calm,left.hand⟩

variable (m asks) in
structure Alike (name : String) (names : String × List String) : Prop where
  names : ∀ g, (asks g).names = names
  supplier : ∀ g supplier found, m.supplier (asks g).preferredSupplier = .ok (supplier,found) → found = name

theorem Once.step (once : Once name names s) (alike : Alike m asks name names) (apart : Apart s)
    (stepped : s.step json crypto m asks g answers = some s') (undue : Undue m asks s (g,answers)) :
    Once name names s' := by
  cases step_moved json crypto m asks stepped with
  | refused _ idle | missed idle _ => exact once.pass g rfl rfl rfl (by rw [idle]; simp) (by simp)
  | found idle _ => exact once.pass g rfl rfl rfl (by rw [idle]; simp) (by simp)
  | created creating => exact once.pass g rfl rfl rfl (by rw [creating]; simp) (by simp)
  | acquired waiting _ => exact once.pass g rfl rfl rfl (by rw [waiting]; simp) (by simp)
  | @worked supplier found position world after issued resolved inside busy done =>
    have same := alike.supplier g supplier found resolved
    subst same
    unfold Undue at undue
    rw [resolved,inside] at undue
    exact once.work apart inside (alike.names g) (step_effect done) undue
  | left inside _ | lost inside _ =>
    exact once.pass g rfl rfl rfl (by rw [inside]; simp [Section.isUnsaved]) (by simp)
  | recreated recreating => exact once.pass g rfl rfl rfl (by rw [recreating]; simp) (by simp)
  | released unlocking _ | fatal unlocking _ => exact once.pass g rfl rfl rfl (by rw [unlocking]; simp) (by simp)

theorem Once.initial (initial : Initial s) : Once name names s := by
  refine ⟨initial.sound,fun g position r inside => ?_,.inl initial.issued⟩
  rw [initial.idle g] at inside
  cases inside

theorem Once.length (once : Once name names s) : s.issued.length ≤ 1 := by
  rcases once.status with none | ⟨c,issued⟩
  · rw [none]
    exact Nat.zero_le 1
  · rw [issued.issued]
    exact Nat.le_refl 1

end Once

section Runs

variable {K : Type} {json : Json} {crypto : Crypto K} {m : Manager} {asks : Bool → Ask} {s s' : State K}
  {answers : Answers Unit WriteFile} {g : Bool}

variable (json crypto m asks) in
/-- In every interleaving the two calls use one mutex and their sections do not overlap, and
they issue at most one certificate as long as that is not due. -/
structure Excludes (s : State K) : Prop where
  mutex : ∀ reached, (machine json crypto m asks).Reaches s reached →
    ∀ left right, reached.used false = some left → reached.used true = some right → left = right
  apart : ∀ reached, (machine json crypto m asks).Reaches s reached → Apart reached
  once : ∀ reached, (undueMachine json crypto m asks).Reaches s reached →
    reached.issued.length ≤ 1

theorem enabled_step {event : Event} (enabled : (machine json crypto m asks).Enabled s event) :
    s.step json crypto m asks event.1 event.2 = some ((machine json crypto m asks).next s event) := by
  obtain ⟨s',stepped⟩ := Option.isSome_iff_exists.mp enabled
  simp [machine,stepped]

/-- What keeps the calls apart also keeps them from issuing twice. -/
theorem excludes_of_invariant (Safe : State K → Prop) (alike : Alike m asks name names) (initial : Initial s)
    (start : Safe s)
    (step : ∀ {u u' g answers}, Safe u → u.step json crypto m asks g answers = some u' → Safe u')
    (mutex : ∀ {u left right}, Safe u → u.used false = some left → u.used true = some right → left = right)
    (apart : ∀ {u}, Safe u → Apart u) : Excludes json crypto m asks s := by
  have safe {reached : State K} (reaches : (machine json crypto m asks).Reaches s reached) : Safe reached := by
    obtain ⟨trace,run⟩ := reaches
    exact run.invariant Safe (fun u event safe enabled => step safe (enabled_step enabled)) start
  refine ⟨fun reached reaches left right => mutex (safe reaches),fun reached reaches => apart (safe reaches),?_⟩
  rintro reached ⟨trace,run⟩
  have kept : Safe reached ∧ Once name names reached := by
    refine run.invariant (fun u => Safe u ∧ Once name names u) ?_ ⟨start,Once.initial initial⟩
    rintro u event ⟨safe,once⟩ ⟨enabled,undue⟩
    have stepped := enabled_step enabled
    exact ⟨step safe stepped,once.step alike (apart safe) stepped undue⟩
  exact kept.2.length

theorem Guarded.initial (initial : Initial s) (found : ∀ g, s.mutexFor asks g = some mutex) :
    Guarded asks mutex s := by
  refine ⟨found,fun g => ?_,fun g taken used => ?_,fun g inside => ?_,fun g inside => ?_⟩
  · rw [initial.idle g]
    trivial
  · rw [initial.unused g] at used
    cases used
  · rw [initial.idle g] at inside
    cases inside
  · rw [initial.idle g] at inside
    cases inside

theorem Moved.other (moved : Moved json crypto m asks g answers s s') :
    s'.phase (!g) = s.phase (!g) ∧ s'.used (!g) = s.used !g := by
  cases moved with
  | found | created => exact ⟨at_other ..,Function.update_of_ne (Bool.not_ne_self g) ..⟩
  | _ => exact ⟨at_other ..,rfl⟩

structure Absent (g : Bool) (s : State K) : Prop where
  outside : (s.phase g).isInside = false
  unused : s.used g = none

theorem Absent.step (unresolved : m.supplier (asks g).preferredSupplier = .error message) (absent : Absent g s)
    (stepped : s.step json crypto m asks h answers = some s') : Absent g s' := by
  by_cases same : h = g
  · subst same
    unfold State.step at stepped
    rw [unresolved] at stepped
    dsimp only at stepped
    split at stepped
    · cases stepped
      exact ⟨by rw [at_self]; rfl,absent.unused⟩
    · cases stepped
  · obtain ⟨phase,used⟩ := (step_moved json crypto m asks stepped).other
    rw [← Bool.eq_not.mpr (Ne.symm same)] at phase used
    exact ⟨by rw [phase]; exact absent.outside,by rw [used]; exact absent.unused⟩

theorem Absent.apart (absent : Absent g s) : Apart s := by
  refine mover_or_other g (fun inside => ?_) fun _ => ?_
  · rw [absent.outside] at inside
    cases inside
  · rw [Bool.not_not]
    exact absent.outside

theorem Absent.used (absent : Absent g s) (left : s.used false = some a) (right : s.used true = some b) : a = b := by
  have unused := absent.unused
  cases g with
  | false =>
    rw [unused] at left
    cases left
  | true =>
    rw [unused] at right
    cases right

/-- One mutex in the map for both calls, and one supplier. -/
theorem excludes_of_guarded (alike : Alike m asks name names) (initial : Initial s)
    (found : ∀ g, s.mutexFor asks g = some mutex) : Excludes json crypto m asks s :=
  excludes_of_invariant (Guarded asks mutex) alike initial (Guarded.initial initial found)
    (fun guarded stepped => guarded.step stepped)
    (fun guarded left right => (guarded.used _ _ left).trans (guarded.used _ _ right).symm)
    (fun guarded => guarded.apart)

theorem excludes_of_absent (same : ∀ g, (asks g).names = names) (initial : Initial s)
    (unresolved : m.supplier (asks g).preferredSupplier = .error message) : Excludes json crypto m asks s := by
  have alike : ∃ name, Alike m asks name names := by
    have only (name : String)
        (other : ∀ supplier found, m.supplier (asks !g).preferredSupplier = .ok (supplier,found) → found = name) :
        Alike m asks name names := by
      refine ⟨same,mover_or_other g (fun supplier found resolved => ?_) other⟩
      rw [unresolved] at resolved
      cases resolved
    cases resolved : m.supplier (asks !g).preferredSupplier with
    | error _ => exact ⟨"",only "" (by simp [resolved])⟩
    | ok chosen =>
      refine ⟨chosen.2,only chosen.2 fun supplier found again => ?_⟩
      cases resolved.symm.trans again
      rfl
  obtain ⟨name,alike⟩ := alike
  exact excludes_of_invariant (Absent g) alike initial ⟨by rw [initial.idle g]; rfl,initial.unused g⟩
    (fun absent stepped => absent.step unresolved stepped) (fun absent left right => absent.used left right)
    (fun absent => absent.apart)

end Runs

end Centauri.JsonLocks
