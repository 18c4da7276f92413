import Centauri.RedisLockSafety

/-! Mutual exclusion of the lock. The lease of a key begins with the SETNX that stores
the token, one step before Lock writes it to the shared object and returns. -/
namespace Centauri.RedisLock

open RedisStore

variable {P G : Type} [DecidableEq P] [DecidableEq G] {home : G → P} {keyPrefix : String}

/-- The goroutine has won the key with this token and has not begun to unlock. -/
def Phase.leases (key token : String) : Phase → Bool
  | .acquired k own | .holding k own => k == key && own == token
  | _ => false

theorem leases_iff (phase : Phase) (key token : String) : phase.leases key token = true ↔
    phase = .acquired key token ∨ phase = .holding key token := by
  cases phase <;> simp [Phase.leases]

theorem leases_own (leased : Phase.leases key token phase = true) : phase.own = some token := by
  rcases (leases_iff phase key token).mp leased with rfl | rfl <;> rfl

def Leased (s : State P G) : Prop :=
  ∀ g key token, (s.phase g).leases key token = true → s.redis key = some token

/-- A key does not expire while the token it holds is leased. -/
def KeepsLease (s : State P G) : Event G → Prop
  | .expire key => ∀ token ∈ s.redis key, ∀ g, (s.phase g).leases key token = false
  | _ => True

instance [Fintype G] (s : State P G) : ∀ event, Decidable (KeepsLease s event)
  | .expire key =>
    inferInstanceAs (Decidable (∀ token ∈ s.redis key, ∀ g, (s.phase g).leases key token = false))
  | .lock _ _ _ | .setNX _ _ _ | .unlock _ _ _ | .release _ _ | .refresh _ _ _ | .store _ =>
    inferInstanceAs (Decidable True)

omit [DecidableEq P] [DecidableEq G] in
theorem Leased.unique {s : State P G} (tokens : Tokens s) (leased : Leased s)
    (hg : (s.phase g).leases key token = true) (hh : (s.phase h).leases key token' = true) : g = h := by
  have same : token' = token :=
    Option.some.inj ((leased h key token' hh).symm.trans (leased g key token hg))
  subst same
  exact tokens.distinct g h token' (leases_own hg) (leases_own hh)

omit [DecidableEq P] [DecidableEq G] in
/-- A free key is leased by nobody. -/
theorem Leased.free {s : State P G} (leased : Leased s) (free : s.redis key = none) (g : G)
    (token : String) : (s.phase g).leases key token = false := by
  rw [← Bool.not_eq_true]
  intro leases
  have := leased g key token leases
  rw [free] at this
  cases this

omit [DecidableEq P] [DecidableEq G] in
theorem Leased.alone {s : State P G} (tokens : Tokens s) (leased : Leased s) (event : Event G) :
    Alone home s event := by
  cases event with
  | store g =>
    intro h _ meets
    cases pg : s.phase g <;> cases ph : s.phase h <;>
      simp only [pg,ph,Phase.meets,Bool.false_eq_true,beq_iff_eq] at meets
    subst meets
    have same := leased.unique tokens ((leases_iff ..).mpr (.inl pg)) ((leases_iff ..).mpr (.inr ph))
    subst same
    rw [pg] at ph
    cases ph
  | _ => exact trivial

omit [DecidableEq P] in
/-- Redis is untouched and a goroutine keeps its lease or gives it up. -/
theorem Leased.at {s : State P G} (leased : Leased s) (g : G) (phase : Phase)
    (kept : ∀ key token, phase.leases key token = true → (s.phase g).leases key token = true) :
    Leased (s.at g phase) := by
  intro h key token leases
  by_cases same : h = g
  · subst same
    rw [at_self] at leases
    exact leased h key token (kept key token leases)
  · rw [at_other s phase same] at leases
    exact leased h key token leases

omit [DecidableEq P] [DecidableEq G] in
/-- A key that nobody leases may change. -/
theorem Leased.setRedis {s : State P G} (leased : Leased s) (key : String) (value : Option String)
    (unleased : ∀ g token, (s.phase g).leases key token = false) : Leased (s.setRedis key value) := by
  intro g k token leases
  by_cases same : k = key
  · subst same
    exact absurd leases (by simp [State.setRedis,unleased])
  · simpa [State.setRedis,same] using leased g k token leases

omit [DecidableEq P] [DecidableEq G] in
theorem Leased.congr {s t : State P G} (leased : Leased s) (phase : t.phase = s.phase)
    (redis : t.redis = s.redis) : Leased t := by
  intro g key token leases
  rw [redis]
  exact leased g key token (phase ▸ leases)

omit [DecidableEq P] in
/-- A SETNX that succeeds on a free key begins a lease. -/
theorem Leased.win {s : State P G} (leased : Leased s) (free : s.redis key = none) (g : G)
    (token : String) : Leased ((s.setRedis key (some token)).at g (.acquired key token)) := by
  intro h k own leases
  by_cases same : h = g
  · subst same
    rw [at_self,leases_iff] at leases
    simp only [Phase.acquired.injEq,reduceCtorEq,or_false] at leases
    obtain ⟨rfl,rfl⟩ := leases
    simp [State.at,State.setRedis]
  · rw [at_other _ _ same] at leases
    exact leased.setRedis key (some token) (leased.free free) h k own leases

theorem step_leased {s t : State P G} (tokens : Tokens s) (held : Held home s) (leased : Leased s)
    (step : Step home keyPrefix s event t) (keeps : KeepsLease s event) : Leased t := by
  cases step with
  | lock _ => exact leased.at _ _ (by simp [Phase.leases])
  | @won g key token _ _ _ free => exact (leased.win free g token).congr rfl rfl
  | @orphaned g key token _ _ free =>
    exact (leased.setRedis key (some token) (leased.free free)).congr rfl rfl
  | missed _ _ => exact leased.congr rfl rfl
  | @store g key own phase =>
    exact (leased.at g (.holding key own) (by simp [Phase.leases,phase])).congr rfl rfl
  | @unlockEmpty g key _ _ _ _ _ =>
    exact (leased.at g .outside (by simp [Phase.leases])).congr rfl rfl
  | @unlock g key own _ _ _ _ =>
    exact (leased.at g (.releasing key own (s.fields (home g) key).token)
      (by simp [Phase.leases])).congr rfl rfl
  | @deleted g key own taken _ phase current =>
    refine (leased.setRedis key none ?_).at g .outside (by simp [Phase.leases])
    -- The deleted token is the caller's own, and the caller's lease is over.
    intro h token
    rw [← Bool.not_eq_true]
    intro leases
    have mine : taken = own := held.releasing g key own taken phase
    have same : token = taken := Option.some.inj ((leased h key token leases).symm.trans current)
    have self : h = g := by
      apply tokens.distinct h g own
      · rw [leases_own leases,same,mine]
      · simp [Phase.own,phase]
    subst self
    simp [phase,Phase.leases] at leases
  | kept _ => exact leased.at _ _ (by simp [Phase.leases])
  | refresh => exact leased
  | @expire key =>
    refine leased.setRedis key none fun g token => ?_
    rw [← Bool.not_eq_true]
    intro leases
    have := keeps token (leased g key token leases) g
    rw [leases] at this
    cases this

structure Safe (home : G → P) (s : State P G) : Prop where
  tokens : Tokens s
  held : Held home s
  leased : Leased s

omit [DecidableEq P] [DecidableEq G] in
theorem initial_safe {s : State P G} (initial : Initial s) : Safe home s := by
  refine ⟨initial_tokens initial,initial_held initial,fun g key token leases => ?_⟩
  simp [initial.phase,Phase.leases] at leases

theorem Safe.step {s t : State P G} (safe : Safe home s) (step : Step home keyPrefix s event t)
    (keeps : KeepsLease s event) : Safe home t where
  tokens := step_tokens safe.tokens step
  held := step_held safe.tokens safe.held step (safe.leased.alone safe.tokens event)
  leased := step_leased safe.tokens safe.held safe.leased step keeps

theorem run_safe {s reached : State P G} (initial : Initial s)
    (run : ((machine home keyPrefix).restrict KeepsLease).Run s trace reached) :
    Safe home reached := by
  refine run.invariant (Safe home) ?_ (initial_safe initial)
  rintro t event safe ⟨enabled,keeps⟩
  exact safe.step (step_of_enabled t event enabled) keeps

omit [DecidableEq P] [DecidableEq G] in
/-- One key has one holder. -/
theorem Safe.unique {s : State P G} (safe : Safe home s) (hg : s.phase g = .holding key own)
    (hh : s.phase h = .holding key own') : g = h :=
  safe.leased.unique safe.tokens ((leases_iff ..).mpr (.inr hg)) ((leases_iff ..).mpr (.inr hh))

/-- A goroutine stays inside until it unlocks, whatever the others do. -/
theorem holding_kept {s t : State P G} (step : Step home keyPrefix s event t)
    (holds : s.phase g = .holding key own)
    (stays : ∀ subjectName altNames, event ≠ .unlock g subjectName altNames) :
    t.phase g = .holding key own := by
  have other {h : G} {phase : Phase} {u : State P G} (same : u.phase = s.phase)
      (elsewhere : s.phase h ≠ .holding key own) : (u.at h phase).phase g = .holding key own := by
    have ne : g ≠ h := by
      rintro rfl
      exact elsewhere holds
    rw [at_other u phase ne,same]
    exact holds
  cases step with
  | lock outside => exact other rfl (by simp [outside])
  | won locking _ _ _ => exact other rfl (by simp [locking])
  | orphaned _ _ _ => exact holds
  | missed _ _ => exact holds
  | store acquired => exact other rfl (by simp [acquired])
  | @unlockEmpty h _ _ subjectName altNames _ _ =>
    have ne : g ≠ h := fun same => stays subjectName altNames (by rw [same])
    exact (at_other _ _ ne).trans holds
  | @unlock h _ _ subjectName altNames _ _ =>
    have ne : g ≠ h := fun same => stays subjectName altNames (by rw [same])
    exact (at_other _ _ ne).trans holds
  | deleted releasing _ => exact other rfl (by simp [releasing])
  | kept releasing => exact other rfl (by simp [releasing])
  | refresh => exact holds
  | expire => exact holds

theorem lockKey_perm (perm : altNames.Perm altNames') :
    lockKey keyPrefix subjectName altNames = lockKey keyPrefix subjectName altNames' := by
  simp only [lockKey,namesKey,(sortedCopy_eq_iff _ _).mpr perm]

theorem isHolding_iff (phase : Phase) (key : String) :
    phase.isHolding key = true ↔ ∃ own, phase = .holding key own := by
  cases phase <;> simp [Phase.isHolding]

def inside (keyPrefix : String) (s : State P G) (subjectName : String) (altNames : List String) :
    Set G :=
  {g | ∃ names, names.Perm altNames ∧
    (s.phase g).isHolding (lockKey keyPrefix subjectName names) = true}

omit [DecidableEq P] [DecidableEq G] in
theorem mem_inside_iff (s : State P G) (g : G) : g ∈ inside keyPrefix s subjectName altNames ↔
    ∃ own, s.phase g = .holding (lockKey keyPrefix subjectName altNames) own := by
  constructor
  · rintro ⟨names,perm,holding⟩
    exact (isHolding_iff ..).mp (lockKey_perm perm ▸ holding)
  · exact fun holding => ⟨altNames,.refl _,(isHolding_iff ..).mpr holding⟩

/-- While no key expires between the SETNX that stored it and its holder's Unlock, at
most one goroutine of all processes is between Lock and Unlock for one set of names. -/
theorem mutual_exclusion (s reached : State P G) (trace : List (Event G)) (initial : Initial s)
    (run : ((machine home keyPrefix).restrict KeepsLease).Run s trace reached)
    (subjectName : String) (altNames : List String) :
    (inside keyPrefix reached subjectName altNames).Subsingleton := by
  intro g hg h hh
  obtain ⟨_,pg⟩ := (mem_inside_iff ..).mp hg
  obtain ⟨_,ph⟩ := (mem_inside_iff ..).mp hh
  exact (run_safe initial run).unique pg ph

/-- The weaker promise: a key does not expire while its holder is between the return of
Lock and the start of Unlock. -/
def KeepsHeld (s : State P G) : Event G → Prop
  | .expire key => ∀ token ∈ s.redis key, ∀ g, s.phase g ≠ .holding key token
  | _ => True

instance [Fintype G] (s : State P G) : ∀ event, Decidable (KeepsHeld s event)
  | .expire key =>
    inferInstanceAs (Decidable (∀ token ∈ s.redis key, ∀ g, s.phase g ≠ .holding key token))
  | .lock _ _ _ | .setNX _ _ _ | .unlock _ _ _ | .release _ _ | .refresh _ _ _ | .store _ =>
    inferInstanceAs (Decidable True)

/-- It does not suffice: the key of `false` expires after its SETNX and before its Lock
returns, `true` takes it, and then both Lock calls return. -/
theorem both_inside : ∃ reached : State Bool Bool,
    ((machine id "centauri").restrict KeepsHeld).Run quiet
      [.lock false "example.com" ["a","b"],.setNX false "aa" .ok,
        .expire "centauri:lock:example.com;a;b",.lock true "example.com" ["b","a"],
        .setNX true "bb" .ok,.store true,.store false] reached ∧
    ¬(inside "centauri" reached "example.com" ["a","b"]).Subsingleton := by
  refine ⟨_,Machine.run_of_allows (by decide),fun single => ?_⟩
  have same : false = true :=
    single ⟨["a","b"],by decide,by decide⟩ ⟨["b","a"],by decide,by decide⟩
  cases same

/-- One goroutine takes the lock after another, whose first attempt was applied by Redis
but reported as failed, so that its key had to expire. -/
def handover : List (Event Bool) :=
  [.lock false "example.com" ["a","b"],.setNX false "aa" .applied,
    .expire "centauri:lock:example.com;a;b",.setNX false "bb" .ok,.store false,
    .lock true "example.com" ["b","a"],.setNX true "cc" .ok,.unlock false "example.com" ["a","b"],
    .setNX true "dd" .failed,.release false .applied,.setNX true "ee" .ok,.store true]

theorem handover_exclusive :
    true ∈ inside "centauri" ((machine id "centauri").after (quiet : State Bool Bool) handover)
      "example.com" ["a","b"] ∧
    (inside "centauri" ((machine id "centauri").after (quiet : State Bool Bool) handover)
      "example.com" ["a","b"]).Subsingleton := by
  refine ⟨⟨["b","a"],by decide,by decide⟩,?_⟩
  exact mutual_exclusion quiet _ handover quiet_initial (Machine.run_of_allows
    (m := (machine id "centauri").restrict KeepsLease) (by decide)) "example.com" ["a","b"]

end Centauri.RedisLock
