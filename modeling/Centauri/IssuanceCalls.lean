import Centauri.Issuance

/-! The calls of the machine are the manager's. A `GetCertificate` that nobody interrupts
takes the machine to the result and the store contents of `Manager.getCertificate`,
whatever the supplier and Redis answer on the way. -/
namespace Centauri.Issuance

open RedisStore

variable {K P G E : Type} [DecidableEq P] [DecidableEq G] [DecidableEq E]
variable {json : Json} {crypto : Crypto K} {home : G → P} {t : Target}
variable {g : G} {hash hash' : RedisHash} {issued issued' : List Details}

def State.become (s : State K P G E) (g : G) (phase : Phase K) (hash : RedisHash)
    (issued : List Details) : State K P G E :=
  { s.at g phase with saves := { s.saves with hash := hash },issued := issued }

omit [DecidableEq P] [DecidableEq E] in
@[simp] theorem become_call (s : State K P G E) :
    (s.become g phase hash issued).call g = phase := Function.update_self ..

section Steps

variable {s : State K P G E}

theorem act_run {phase after : Phase K} (action : Action)
    (moved : phase.step crypto t s.saves.clock action = some after) :
    (machine json crypto home t).Reaches (s.become g phase hash issued)
      (s.become g after hash (issued ++ action.issues t)) := by
  have here : ((s.become g phase hash issued).call g).step crypto t
      (s.become g phase hash issued).saves.clock action = some after := by
    rw [become_call]
    exact moved
  have enabled : (machine json crypto home t).Enabled (s.become g phase hash issued)
      (.act g action) := Option.isSome_of_eq_some here
  have reached := Machine.Reaches.single enabled
  have result : (machine json crypto home t).next (s.become g phase hash issued) (.act g action) =
      s.become g after hash (issued ++ action.issues t) := by
    simp only [machine,next,here]
    simp [State.become,State.at]
  rwa [result] at reached

/-- Steps of a save before its transaction are steps of the whole machine. -/
theorem lift_saves {saves final : RedisSaves.State (G ⊕ E)}
    (run : (RedisSaves.machine json).Run saves trace final) (same : s.saves = saves)
    (owned : ∀ event ∈ trace, Owned s.call event ∧ ∀ w d, event ≠ .exec w d) :
    (machine json crypto home t).Reaches s { s with saves := final } := by
  induction run generalizing s with
  | nil =>
    subst same
    exact .refl
  | @cons saves event rest final enabled _ ih =>
    subst same
    obtain ⟨mine,early⟩ := owned event List.mem_cons_self
    have quiet : afterSave crypto s.call event = s.call := by
      cases event with
      | exec w d => exact absurd rfl (early w d)
      | _ => rfl
    have allowed : (machine json crypto home t).Enabled s (.save event) := ⟨mine,enabled⟩
    have first := Machine.Reaches.single allowed
    have result : (machine json crypto home t).next s (.save event) =
        { s with saves := RedisSaves.next json s.saves event } := by
      simp only [machine,next,quiet]
    rw [result] at first
    exact first.trans (ih rfl fun e member => owned e (List.mem_cons_of_mem _ member))

def Phase.settled (crypto : Crypto K) (t : Target) (phase : Phase K) : Option String → Phase K
  | none => phase.saved crypto
  | some message => phase.unsaved t message

theorem saveError_run {phase : Phase K} (idle : s.saves.pending (.inl g) = none)
    (saves : phase.saves = some d) (message : String) :
    (machine json crypto home t).Reaches (s.become g phase hash issued)
      (s.become g (phase.unsaved t message) hash issued) := by
  have enabled : (machine json crypto home t).Enabled (s.become g phase hash issued)
      (.saveError g message) := by
    have here : ((s.become g phase hash issued).call g).saves = some d := by
      rw [become_call]
      exact saves
    exact Option.isSome_of_eq_some here
  have reached := Machine.Reaches.single enabled
  have result : (machine json crypto home t).next (s.become g phase hash issued)
      (.saveError g message) = s.become g (phase.unsaved t message) hash issued := by
    simp only [machine,next,become_call]
    simp [State.become,State.at,RedisSaves.State.put,← idle]
  rwa [result] at reached

def State.ready (s : State K P G E) (g : G) (p : RedisSaves.Pending) : State K P G E :=
  { s with saves := s.saves.put (.inl g) (some p) }

theorem ready_run {phase : Phase K} (idle : s.saves.pending (.inl g) = none)
    (saves : phase.saves = some d) (encoded : json.marshal d = .ok raw) (listing : Listing) :
    (machine json crypto home t).Reaches (s.become g phase hash issued)
      ((s.become g phase hash issued).ready g
        ⟨d,raw,[],pruneArgs json s.saves.clock (listing.order hash.entries)⟩) := by
  have here : ((s.become g phase hash issued).call g).saves = some d := by
    rw [become_call]
    exact saves
  refine lift_saves (RedisSaves.prepare_run (s.become g phase hash issued).saves (.inl g) idle
    (listing.perm _) encoded) rfl ?_
  intro event member
  rcases List.mem_cons.mp member with rfl | member
  · exact ⟨here,by simp⟩
  · obtain rfl := List.eq_of_mem_replicate member
    exact ⟨trivial,by simp⟩

theorem exec_run {phase : Phase K} (idle : s.saves.pending (.inl g) = none)
    (saves : phase.saves = some d) (args : List Entry) (error : Option String) :
    (machine json crypto home t).Reaches ((s.become g phase hash issued).ready g ⟨d,raw,[],args⟩)
      (s.become g (phase.settled crypto t error) (transaction args d raw hash) issued) := by
  have here : ((s.become g phase hash issued).call g).saves = some d := by
    rw [become_call]
    exact saves
  have pending : RedisSaves.Enabled json
      ((s.become g phase hash issued).ready g ⟨d,raw,[],args⟩).saves (.exec (.inl g) d) :=
    ⟨_,RedisSaves.put_pending ..,rfl,rfl⟩
  have written : RedisSaves.next json
      ((s.become g phase hash issued).saves.put (.inl g) (some ⟨d,raw,[],args⟩)) (.exec (.inl g) d) =
        ⟨transaction args d raw hash,s.saves.clock,s.saves.pending⟩ :=
    RedisSaves.next_exec (s.become g phase hash issued).saves _ idle args
  cases error with
  | none =>
    have enabled : (machine json crypto home t).Enabled
        ((s.become g phase hash issued).ready g ⟨d,raw,[],args⟩) (.save (.exec (.inl g) d)) :=
      ⟨here,pending⟩
    have reached := Machine.Reaches.single enabled
    simp only [machine,next,State.ready,written,afterSave,become_call] at reached ⊢
    simpa [State.become,State.at,Phase.settled] using reached
  | some message =>
    have enabled : (machine json crypto home t).Enabled
        ((s.become g phase hash issued).ready g ⟨d,raw,[],args⟩) (.applied g d message) :=
      ⟨here,pending⟩
    have reached := Machine.Reaches.single enabled
    simp only [machine,next,State.ready,written,become_call] at reached ⊢
    simpa [State.become,State.at,Phase.settled] using reached

/-- A save, however it goes, is the store's. -/
theorem save_run {phase : Phase K} (idle : s.saves.pending (.inl g) = none)
    (saves : phase.saves = some d) (read : Except String Listing) (exec : Exec)
    (done : RedisStore.saveCertificate json s.saves.clock (reply read hash) exec d hash =
      (after,error)) :
    (machine json crypto home t).Reaches (s.become g phase hash issued)
      (s.become g (phase.settled crypto t error) after issued) := by
  cases read with
  | error message =>
    obtain ⟨rfl,rfl⟩ := Prod.mk.inj done
    exact saveError_run idle saves message
  | ok listing =>
    cases encoded : json.marshal d with
    | error message =>
      simp only [reply,RedisStore.saveCertificate,encoded,Prod.mk.injEq] at done
      obtain ⟨rfl,rfl⟩ := done
      exact saveError_run idle saves message
    | ok raw =>
      cases exec with
      | ok =>
        simp only [reply,RedisStore.saveCertificate,encoded,Prod.mk.injEq] at done
        obtain ⟨rfl,rfl⟩ := done
        exact (ready_run idle saves encoded listing).trans (exec_run idle saves _ none)
      | failed message =>
        simp only [reply,RedisStore.saveCertificate,encoded,Prod.mk.injEq] at done
        obtain ⟨rfl,rfl⟩ := done
        exact saveError_run idle saves message
      | applied message =>
        simp only [reply,RedisStore.saveCertificate,encoded,Prod.mk.injEq] at done
        obtain ⟨rfl,rfl⟩ := done
        exact (ready_run idle saves encoded listing).trans (exec_run idle saves _ (some message))

end Steps

section Calls

variable {s : State K P G E} {w : World RedisHash} {cert : Ref}
variable {answers : Answers (Except String Listing) (Except String Listing × Exec)}

variable (json crypto home t) in
def Ends (s : State K P G E) (g : G) (phase : Phase K) (hash : RedisHash) (issued : List Details)
    (result : World RedisHash × Outcome (TlsCertificate K)) : Prop :=
  ∃ issued', (machine json crypto home t).Reaches (s.become g phase hash issued)
    (s.become g (.leaving result.2) result.1.store issued')

theorem Ends.after
    (first : (machine json crypto home t).Reaches (s.become g phase hash issued)
      (s.become g phase' hash' issued'))
    (rest : Ends json crypto home t s g phase' hash' issued' result) :
    Ends json crypto home t s g phase hash issued result := by
  obtain ⟨final,reaches⟩ := rest
  exact ⟨final,first.trans reaches⟩

theorem Ends.done (outcome : result.2 = r) (store : result.1.store = hash) :
    Ends json crypto home t s g (.leaving r) hash issued result := by
  refine ⟨issued,?_⟩
  rw [outcome,store]
  exact .refl

theorem Ends.act {phase after : Phase K} (action : Action)
    (moved : phase.step crypto t s.saves.clock action = some after)
    (rest : Ends json crypto home t s g after hash (issued ++ action.issues t) result) :
    Ends json crypto home t s g phase hash issued result :=
  .after (act_run action moved) rest

/-- A save that ends the call, by its key pair or by an error about the subject. -/
theorem deliver_ends (phase : Phase K) (idle : s.saves.pending (.inl g) = none)
    (store : w.store = hash) (saves : phase.saves = some (w.heap cert))
    (saved : phase.saved crypto = .leaving (.ofExcept ((w.heap cert).keyPair crypto)))
    (unsaved : ∀ message, phase.unsaved t message =
      .leaving (.err ("failed to save certificate for " ++ subject ++ ": " ++ message))) :
    Ends json crypto home t s g phase hash issued
      (Manager.deliver crypto (asStore json) s.saves.clock how subject cert w) := by
  subst store
  cases done : RedisStore.saveCertificate json s.saves.clock (reply how.1 w.store) how.2
      (w.heap cert) w.store with
  | mk after error =>
    refine .after (save_run idle saves how.1 how.2 done) ?_
    cases error with
    | none =>
      rw [Phase.settled,saved]
      exact .done (by simp [Manager.deliver,Manager.save,asStore,done])
        (by simp [Manager.deliver,Manager.save,asStore,done])
    | some message =>
      rw [Phase.settled,unsaved]
      exact .done (by simp [Manager.deliver,Manager.save,asStore,done])
        (by simp [Manager.deliver,Manager.save,asStore,done])

theorem obtain_ends (m : Manager) (idle : s.saves.pending (.inl g) = none)
    (clock : s.saves.clock = answers.now) (store : w.store = hash) :
    Ends json crypto home t s g .obtaining hash issued
      (m.obtain crypto (asStore json) answers t.provider t.subject altNames w) := by
  cases supplied : answers.issued with
  | error message =>
    refine .act (.getCertificate (.error message)) rfl (.done ?_ ?_)
    · simp [Manager.obtain,supplied]
    · simp [Manager.obtain,supplied,World.call,store]
  | ok d =>
    refine .act (.getCertificate (.ok d)) rfl ?_
    cases info : answers.issuedRenewalInfo with
    | error message =>
      refine .act (.updateRenewalInfo (.error message)) rfl ?_
      simp only [Manager.obtain,supplied,info,Manager.updateRenewalInfo,← clock]
      refine deliver_ends (.saving (d.withProvider t.provider)) idle store ?_ ?_ fun message => rfl
      all_goals simp [Phase.saves,Phase.saved,World.alloc,World.modify,World.call]
    | ok fetched =>
      refine .act (.updateRenewalInfo (.ok fetched)) rfl ?_
      simp only [Manager.obtain,supplied,info,Manager.updateRenewalInfo,← clock]
      refine deliver_ends (.saving ((d.withProvider t.provider).withRenewalInfo fetched)) idle store
        ?_ ?_ fun message => rfl
      all_goals simp [Phase.saves,Phase.saved,World.alloc,World.modify,World.call]

theorem staple_ends (idle : s.saves.pending (.inl g) = none) (clock : s.saves.clock = answers.now)
    (store : w.store = hash) :
    Ends json crypto home t s g (.stapling (w.heap cert)) hash issued
      (Manager.staple crypto (asStore json) answers cert w) := by
  cases supplied : answers.staple with
  | error message =>
    refine .act (.updateStaple (.error message)) rfl (.done ?_ ?_)
    · simp [Manager.staple,supplied,World.call]
    · simp [Manager.staple,supplied,World.call,store]
  | ok fetched =>
    refine .act (.updateStaple (.ok fetched)) rfl ?_
    simp only [Manager.staple,supplied,← clock]
    refine deliver_ends (.restapling ((w.heap cert).withStaple fetched)) idle store ?_ ?_ fun message => rfl
    all_goals simp [Phase.saves,Phase.saved,World.modify,World.call]

theorem proceed_ends (m : Manager) (idle : s.saves.pending (.inl g) = none)
    (clock : s.saves.clock = answers.now) (store : w.store = hash) :
    Ends json crypto home t s g (.checking (w.heap cert)) hash issued
      (m.proceed crypto (asStore json) answers t.supplier t.provider t.subject altNames cert w) := by
  refine .act .checkRenew rfl ?_
  unfold Manager.proceed
  rw [clock]
  split
  next => exact obtain_ends m idle clock store
  next =>
    refine .act .checkStaple rfl ?_
    rw [clock]
    cases needs : (w.heap cert).requiresStaple crypto with
    | none => exact .done rfl store
    | some required =>
      dsimp only
      split
      next => exact staple_ends idle clock store
      next => exact .done rfl store

/-- A save after an ARI refresh may fail; the call goes on with the refreshed certificate. -/
theorem resave_run (idle : s.saves.pending (.inl g) = none) (d : Details)
    (how : Except String Listing × Exec) :
    (machine json crypto home t).Reaches (s.become g (.resaving d) hash issued)
      (s.become g (.checking d) (RedisStore.saveCertificate json s.saves.clock (reply how.1 hash)
        how.2 d hash).1 issued) := by
  cases done : RedisStore.saveCertificate json s.saves.clock (reply how.1 hash) how.2 d hash with
  | mk after error =>
    have saved : (machine json crypto home t).Reaches (s.become g (.resaving d) hash issued)
        (s.become g (Phase.settled crypto t (.resaving d) error) after issued) :=
      save_run idle rfl how.1 how.2 done
    have checking : Phase.settled crypto t (.resaving d) error = .checking d := by
      cases error <;> rfl
    rwa [checking] at saved

/-- An ARI refresh brings the call to its check of what is then in hand. -/
theorem refresh_run (idle : s.saves.pending (.inl g) = none) (clock : s.saves.clock = answers.now)
    (store : w.store = hash) :
    (machine json crypto home t).Reaches (s.become g (.found (w.heap cert)) hash issued)
      (s.become g (.checking ((Manager.refresh (asStore json) answers cert w).heap cert))
        (Manager.refresh (asStore json) answers cert w).store issued) := by
  have first : (machine json crypto home t).Reaches (s.become g (.found (w.heap cert)) hash issued)
      (s.become g (if (w.heap cert).ariNextUpdate < s.saves.clock then .refreshing (w.heap cert)
        else .checking (w.heap cert)) hash (issued ++ [])) :=
    act_run .checkAri rfl
  rw [List.append_nil,clock] at first
  refine first.trans ?_
  subst store
  unfold Manager.refresh
  split
  next =>
    cases supplied : answers.renewalInfo with
    | error message =>
      have kept : (machine json crypto home t).Reaches
          (s.become g (.refreshing (w.heap cert)) w.store issued)
          (s.become g (.checking (w.heap cert)) w.store (issued ++ [])) :=
        act_run (.updateRenewalInfo (.error message)) rfl
      simpa [Manager.updateRenewalInfo,World.call] using kept
    | ok fetched =>
      have updated : (machine json crypto home t).Reaches
          (s.become g (.refreshing (w.heap cert)) w.store issued)
          (s.become g (.resaving ((w.heap cert).withRenewalInfo fetched)) w.store (issued ++ [])) :=
        act_run (.updateRenewalInfo (.ok fetched)) rfl
      rw [List.append_nil] at updated
      have saved := updated.trans (resave_run idle _ answers.saveRenewalInfo)
      simpa [Manager.updateRenewalInfo,Manager.save,asStore,World.call,World.modify,clock] using saved
  next => exact .refl

/-- A lookup decides between obtaining a certificate and going on with the one found. -/
theorem lookup_run (lists : Lists hash answer)
    (holds : (s.lock.phase g).isHolding (lockKey t.keyPrefix t.subject (s.names g)) = true) :
    (machine json crypto home t).Reaches (s.become g .entering hash issued)
      (s.become g ((RedisStore.getCertificate json answer t.provider t.subject (s.names g)).elim
        .obtaining .found) hash issued) := by
  have enabled : (machine json crypto home t).Enabled (s.become g .entering hash issued)
      (.lookup g answer) := by
    refine ⟨?_,lists,holds⟩
    rw [become_call]
    rfl
  have reached := Machine.Reaches.single enabled
  have same : (s.become g .entering hash issued).names = s.names := rfl
  cases found : RedisStore.getCertificate json answer t.provider t.subject (s.names g)
  all_goals
    simp only [machine,next,same,found] at reached ⊢
    simpa [State.become,State.at] using reached

theorem getLocked_ends (m : Manager) (idle : s.saves.pending (.inl g) = none)
    (clock : s.saves.clock = answers.now) (store : w.store = hash)
    (holds : (s.lock.phase g).isHolding (lockKey t.keyPrefix t.subject (s.names g)) = true) :
    Ends json crypto home t s g .entering hash issued
      (m.getLocked crypto (asStore json) answers t.supplier t.provider t.subject (s.names g) w) := by
  have lists : Lists hash (reply answers.lookup hash) := by
    cases answers.lookup with
    | error message => exact trivial
    | ok listing => exact listing.perm _
  refine .after (lookup_run lists holds) ?_
  cases found : RedisStore.getCertificate json (reply answers.lookup hash) t.provider t.subject
      (s.names g) with
  | none =>
    have body : Ends json crypto home t s g .obtaining hash issued
        (m.obtain crypto (asStore json) answers t.provider t.subject (s.names g) w) :=
      obtain_ends m idle clock store
    simpa [Manager.getLocked,Manager.lookup,asStore,store,found,World.take] using body
  | some d =>
    have here : (w.alloc d).heap w.fresh = d := Function.update_self ..
    have body : Ends json crypto home t s g (.found ((w.alloc d).heap w.fresh)) hash issued
        (m.proceed crypto (asStore json) answers t.supplier t.provider t.subject (s.names g) w.fresh
          (Manager.refresh (asStore json) answers w.fresh (w.alloc d))) :=
      .after (refresh_run idle clock store) (proceed_ends m idle clock rfl)
    rw [here] at body
    simpa [Manager.getLocked,Manager.lookup,asStore,store,found,World.take] using body

variable (json crypto home t) in
/-- A step of the lock alone. -/
theorem lock_run (s : State K P G E) (event : RedisLock.Event G) (internal : isInternal event = true)
    (enabled : RedisLock.Enabled t.keyPrefix s.lock event) :
    (machine json crypto home t).Reaches s
      { s with lock := RedisLock.next home t.keyPrefix s.lock event } := by
  have allowed : (machine json crypto home t).Enabled s (.lock event) := ⟨internal,enabled⟩
  exact .single allowed

variable (json crypto home) in
/-- A call that finds the lock free comes to hold it. -/
theorem enter_run (outside : (s.call g).isOutside = true) (names : altNames.Perm t.altNames)
    (unlocked : s.lock.phase g = .outside)
    (free : s.lock.redis (lockKey t.keyPrefix t.subject altNames) = none)
    (unused : token ∉ s.lock.used) (nonempty : token ≠ "") :
    ∃ lock, lock.phase g = .holding (lockKey t.keyPrefix t.subject altNames) token ∧
      (machine json crypto home t).Reaches s
        { s.at g .entering with lock := lock,names := Function.update s.names g altNames } := by
  let key := lockKey t.keyPrefix t.subject altNames
  let locking := s.lock.at g (.locking key)
  let acquired := ((locking.draw token).setRedis key (some token)).at g (.acquired key token)
  let entered : State K P G E :=
    { s.at g .entering with lock := locking,names := Function.update s.names g altNames }
  have start : (machine json crypto home t).Enabled s (.begin g altNames) := ⟨outside,names,unlocked⟩
  have begun : (machine json crypto home t).Reaches s entered := .single start
  have won := lock_run json crypto home t entered (.setNX g token .ok) rfl
    ⟨by simp [entered,locking,RedisLock.Phase.isLocking],unused,nonempty⟩
  have vacant : locking.redis key = none := free
  have taken : RedisLock.next home t.keyPrefix locking (.setNX g token .ok) = acquired := by
    have phase : locking.phase g = .locking key := RedisLock.at_self ..
    simp only [RedisLock.next,phase,vacant,if_true]
    rfl
  have stored := lock_run json crypto home t { entered with lock := acquired } (.store g) rfl
    (by simp [RedisLock.Enabled,acquired,RedisLock.Phase.isAcquired])
  refine ⟨_,?_,begun.trans (Machine.Reaches.trans ?_ stored)⟩
  · simp [RedisLock.next,acquired,key]
  · rw [← taken]
    exact won

/-- A call whose body has ended returns from its unlock. -/
theorem leave_run (s : State K P G E) (leaving : s.call g = .leaving result)
    (holds : (s.lock.phase g).isHolding (lockKey t.keyPrefix t.subject (s.names g)) = true) :
    ∃ reached : State K P G E, reached.call g = .returned result ∧ reached.saves = s.saves ∧
      (machine json crypto home t).Reaches s reached := by
  have enabled : (machine json crypto home t).Enabled s (.unlock g) :=
    ⟨by rw [leaving]; rfl,holds⟩
  refine ⟨_,?_,?_,.single enabled⟩
  · simp [machine,next,leaving,State.at]
  · simp [machine,next,leaving,State.at]

/-- An uninterrupted call is the manager's, in its result and in what it leaves in the store. -/
theorem getCertificate_run (m : Manager) (preferredSupplier : String)
    (resolved : m.supplier preferredSupplier = .ok (t.supplier,t.provider))
    (outside : (s.call g).isOutside = true) (names : altNames.Perm t.altNames)
    (unlocked : s.lock.phase g = .outside)
    (free : s.lock.redis (lockKey t.keyPrefix t.subject altNames) = none)
    (unused : token ∉ s.lock.used) (nonempty : token ≠ "")
    (idle : s.saves.pending (.inl g) = none) (clock : s.saves.clock = answers.now)
    (store : w.store = s.saves.hash) :
    ∃ reached, (machine json crypto home t).Reaches s reached ∧
      reached.call g = .returned (m.getCertificate crypto (asStore json) answers preferredSupplier
        t.subject altNames w).2 ∧
      reached.saves.hash = (m.getCertificate crypto (asStore json) answers preferredSupplier
        t.subject altNames w).1.store := by
  obtain ⟨lock,holding,entered⟩ :=
    enter_run json crypto home outside names unlocked free unused nonempty
  let inside : State K P G E :=
    { s.at g .entering with lock := lock,names := Function.update s.names g altNames }
  have called : inside.names g = altNames := Function.update_self ..
  have holds : (inside.lock.phase g).isHolding (lockKey t.keyPrefix t.subject (inside.names g)) =
      true := by
    rw [called]
    exact (RedisLock.isHolding_iff ..).mpr ⟨token,holding⟩
  have entering : inside.become g .entering s.saves.hash s.issued = inside := by
    simp [inside,State.become,State.at]
  obtain ⟨issued,finished⟩ : Ends json crypto home t inside g .entering s.saves.hash s.issued
      (m.getLocked crypto (asStore json) answers t.supplier t.provider t.subject (inside.names g)
        (w.call (.lockCertificate t.subject altNames))) :=
    getLocked_ends m idle clock store holds
  rw [entering,called] at finished
  obtain ⟨reached,returned,saves,left⟩ := leave_run _ (become_call inside) holds
  refine ⟨reached,entered.trans (finished.trans left),?_,?_⟩
  · rw [returned]
    simp [Manager.getCertificate,resolved]
  · rw [saves]
    simp [Manager.getCertificate,resolved,World.call,State.become]

end Calls

end Centauri.Issuance
