import Centauri.RedisLockExclusion

/-! The lock in time. A stored key lives for its TTL unless it is extended. The Lock call that
stored it starts a goroutine which extends it at every tick. Here the clock decides when a key
may expire, so that what was assumed of expiry follows from how often the extensions succeed. -/
namespace Centauri.RedisLock

open RedisStore

/-- Durations in milliseconds. `slack` is how late a goroutine may be to act on a tick or a
reply. -/
structure Timing where
  ttl : Nat
  renewInterval : Nat
  operationTimeout : Nat
  slack : Nat

def redisLockTTL : Nat := 60000

def redisLockRenewInterval : Nat := redisLockTTL / 3

def redisOperationTimeout : Nat := 5000

def Timing.source (slack : Nat) : Timing :=
  ⟨redisLockTTL,redisLockRenewInterval,redisOperationTimeout,slack⟩

/-- The extensions can fail this many times in a row. An extension takes effect between its
tick and the end of its timeout, and Lock may start the ticker as late after its SETNX. -/
def Timing.Tolerates (timing : Timing) (misses : Nat) : Prop :=
  timing.operationTimeout ≤ timing.renewInterval ∧
    (misses + 1) * timing.renewInterval + 2 * timing.operationTimeout + 2 * timing.slack < timing.ttl

instance (timing : Timing) (misses : Nat) : Decidable (timing.Tolerates misses) :=
  inferInstanceAs (Decidable (_ ∧ _))

/-- Whether `refresh` waits for a tick or for the reply to a script, until its timeout. -/
inductive Refreshing where
  | waiting
  | extending (timeout : Nat)

/-- A goroutine of `refresh`. Its next tick comes at `due`; `missed` counts the extensions that
failed since the last one that did not. -/
structure Refresher where
  key : String
  due : Nat
  refreshing : Refreshing
  missed : Nat

/-- The lock with a clock. `expiry` is when the key that Redis holds expires, `won` when a
goroutine's SETNX took effect, and a refresher goes by its token. -/
structure Timed (P G : Type) where
  lock : State P G
  now : Nat
  expiry : String → Nat
  won : G → Nat
  refreshers : String → Option Refresher

inductive TimedEvent (G : Type) where
  | pass (duration : Nat)
  | act (event : Event G)
  | tick (token : String)
  | extend (token : String) (command : Command)
  | quit (token : String)

variable {P G : Type} [DecidableEq P] [DecidableEq G] (home : G → P) (keyPrefix : String) (timing : Timing)

namespace Timed

/-- The time may come: no tick waits longer than the slack, no reply longer than its timeout, and
neither does a Lock call whose SETNX succeeded. -/
structure Punctual (s : Timed P G) (time : Nat) : Prop where
  refreshers : ∀ token r, s.refreshers token = some r → token ∉ s.lock.closed →
    match r.refreshing with
    | .waiting => time ≤ r.due + timing.slack
    | .extending timeout => time ≤ timeout
  acquired : ∀ g key token, s.lock.phase g = .acquired key token →
    time ≤ s.won g + timing.operationTimeout + timing.slack

/-- A key expires no sooner than its TTL says. What the untimed lock calls `refresh` is `extend`
here. -/
def Enabled (s : Timed P G) : TimedEvent G → Prop
  | .pass duration => s.Punctual timing (s.now + duration)
  | .act event => RedisLock.Enabled keyPrefix s.lock event ∧
    match event with
    | .expire key => (s.lock.redis key).isSome ∧ s.expiry key ≤ s.now
    | .refresh _ _ _ => False
    | _ => True
  | .tick token => ∃ r, s.refreshers token = some r ∧ r.refreshing = .waiting ∧ r.due ≤ s.now
  | .extend token _ => ∃ r timeout, s.refreshers token = some r ∧ r.refreshing = .extending timeout
  | .quit token => token ∈ s.lock.closed

def stamp (s : Timed P G) : Event G → Timed P G
  | .setNX g _ command =>
    match s.lock.phase g with
    | .locking key =>
      if s.lock.redis key = none ∧ command ≠ .failed then
        { s with
          expiry := Function.update s.expiry key (s.now + timing.ttl)
          won := Function.update s.won g s.now }
      else s
    | _ => s
  | .store g =>
    match s.lock.phase g with
    | .acquired key own =>
      { s with
        refreshers := Function.update s.refreshers own (some ⟨key,s.now + timing.renewInterval,.waiting,0⟩) }
    | _ => s
  | _ => s

def setRefresher (s : Timed P G) (token : String) (r : Option Refresher) : Timed P G :=
  { s with refreshers := Function.update s.refreshers token r }

/-- The script extends the key if it still holds the token. An error and a 0 are both a miss. -/
def extend (s : Timed P G) (token : String) (r : Refresher) (command : Command) : Timed P G :=
  let held := s.lock.redis r.key = some token
  { s with
    expiry := if command ≠ .failed ∧ held then Function.update s.expiry r.key (s.now + timing.ttl) else s.expiry
    refreshers := Function.update s.refreshers token (some { r with
      refreshing := .waiting
      missed := if command = .ok ∧ held then 0 else r.missed + 1 }) }

def next (s : Timed P G) : TimedEvent G → Timed P G
  | .pass duration => { s with now := s.now + duration }
  | .act event => { s.stamp timing event with lock := RedisLock.next home keyPrefix s.lock event }
  | .tick token =>
    match s.refreshers token with
    | some r => s.setRefresher token (some { r with
        due := r.due + timing.renewInterval
        refreshing := .extending (s.now + timing.operationTimeout) })
    | none => s
  | .extend token command =>
    match s.refreshers token with
    | some r => s.extend timing token r command
    | none => s
  | .quit token => s.setRefresher token none

def machine : Machine (Timed P G) (TimedEvent G) := ⟨Enabled keyPrefix timing,next home keyPrefix timing⟩

/-- Not more than `misses` extensions of a refresher fail in a row, until it is told to stop. -/
def Responsive (misses : Nat) (s : Timed P G) : TimedEvent G → Prop
  | .extend token command => ∀ r, s.refreshers token = some r → token ∉ s.lock.closed →
    (command = .ok ∧ s.lock.redis r.key = some token) ∨ r.missed + 1 ≤ misses
  | _ => True

structure Begins (s : Timed P G) : Prop where
  initial : Initial s.lock
  refreshers : ∀ token, s.refreshers token = none
  bounded : ∀ key, s.expiry key ≤ s.now + timing.ttl

end Timed

section Stopping

variable {home : G → P} {keyPrefix : String} {s t : State P G}

/-- Where a lease comes from: it went on, a SETNX won it, or its Lock call returned. -/
theorem lease_cases (step : Step home keyPrefix s event t) (leases : (t.phase g).leases key token = true) :
    t.phase g = s.phase g ∨
    event = .setNX g token .ok ∧ s.phase g = .locking key ∧ s.redis key = none ∧ t.phase g = .acquired key token ∨
    event = .store g ∧ s.phase g = .acquired key token ∧ t.phase g = .holding key token := by
  have moved {u : State P G} {h : G} {phase : Phase} (same : u.phase = s.phase)
      (leases : ((u.at h phase).phase g).leases key token = true)
      (ended : ∀ key token, phase.leases key token = false) : (u.at h phase).phase g = s.phase g := by
    by_cases self : g = h
    · rw [self,at_self,ended] at leases
      cases leases
    · rw [at_other u phase self,same]
  cases step with
  | lock outside => exact .inl (moved rfl leases (by simp [Phase.leases]))
  | @won h key' token' locking fresh nonempty free =>
    by_cases self : g = h
    · subst self
      simp only [at_self,Phase.leases,Bool.and_eq_true,beq_iff_eq] at leases
      obtain ⟨rfl,rfl⟩ := leases
      exact .inr (.inl ⟨rfl,locking,free,at_self ..⟩)
    · exact .inl (at_other _ _ self)
  | orphaned => exact .inl rfl
  | missed => exact .inl rfl
  | @store h key' own acquired =>
    by_cases self : g = h
    · subst self
      simp only [at_self,Phase.leases,Bool.and_eq_true,beq_iff_eq] at leases
      obtain ⟨rfl,rfl⟩ := leases
      exact .inr (.inr ⟨rfl,acquired,at_self ..⟩)
    · exact .inl (at_other _ _ self)
  | unlockEmpty => exact .inl (moved rfl leases (by simp [Phase.leases]))
  | unlock => exact .inl (moved rfl leases (by simp [Phase.leases]))
  | deleted => exact .inl (moved rfl leases (by simp [Phase.leases]))
  | kept => exact .inl (moved rfl leases (by simp [Phase.leases]))
  | refresh => exact .inl rfl
  | expire => exact .inl rfl

/-- The stop channel of a lock object belongs to its token, and only leases that ended had theirs
closed. -/
structure Stops (s : State P G) : Prop where
  paired : ∀ p key, (s.fields p key).token ≠ "" → (s.fields p key).stopChan = some (s.fields p key).token
  drawn : ∀ token ∈ s.closed, token ∈ s.used
  running : ∀ g key token, (s.phase g).leases key token = true → token ∉ s.closed

omit [DecidableEq P] [DecidableEq G] in
theorem initial_stops (initial : Initial s) : Stops s := by
  refine ⟨fun p key some => ?_,?_,?_⟩
  · rw [initial.fields] at some
    exact absurd rfl some
  · simp [initial.closed]
  · simp [initial.closed]

/-- What a step closes is the stop channel of a lease that it ends. -/
theorem closed_step (held : Held home s) (stops : Stops s)
    (step : Step home keyPrefix s event t) (closed : token ∈ t.closed) :
    token ∈ s.closed ∨ ∃ g key, s.phase g = .holding key token ∧ ∀ k own, (t.phase g).leases k own = false := by
  cases step with
  | @unlock g key own _ _ holding taken =>
    simp only [List.mem_append,Option.mem_toList] at closed
    rcases closed with now | before
    · have mine := held.holding g key own holding
      rw [stops.paired _ _ taken,mine,Option.some.injEq] at now
      subst now
      exact .inr ⟨g,key,holding,by simp [Phase.leases]⟩
    · exact .inl before
  | _ => exact .inl closed

theorem paired_step (stops : Stops s) (step : Step home keyPrefix s event t) (p : P) (key : String)
    (set : (t.fields p key).token ≠ "") : (t.fields p key).stopChan = some (t.fields p key).token := by
  have written {g : G} {k : String} {fields : Fields} (own : fields.token ≠ "" → fields.stopChan = some fields.token)
      (set : ((s.write (home g) k fields).fields p key).token ≠ "") :
      ((s.write (home g) k fields).fields p key).stopChan = some ((s.write (home g) k fields).fields p key).token := by
    by_cases here : p = home g ∧ key = k
    · obtain ⟨rfl,rfl⟩ := here
      rw [write_self] at set ⊢
      exact own set
    · rw [write_other _ _ _ _ _ _ here] at set ⊢
      exact stops.paired p key set
  cases step with
  | store => exact written (fun _ => rfl) set
  | unlockEmpty => exact written (fun set => absurd rfl set) set
  | unlock => exact written (fun set => absurd rfl set) set
  | _ => exact stops.paired p key set

theorem used_step (step : Step home keyPrefix s event t) (used : token ∈ s.used) : token ∈ t.used := by
  cases step with
  | won => exact List.mem_cons_of_mem _ used
  | orphaned => exact List.mem_cons_of_mem _ used
  | missed => exact List.mem_cons_of_mem _ used
  | _ => exact used

theorem Stops.step (tokens : Tokens s) (held : Held home s) (stops : Stops s)
    (step : Step home keyPrefix s event t) (enabled : RedisLock.Enabled keyPrefix s event) : Stops t := by
  refine ⟨paired_step stops step,fun token closed => ?_,fun g key token leases closed => ?_⟩
  · rcases closed_step held stops step closed with before | ⟨g,key,holding,_⟩
    · exact used_step step (stops.drawn token before)
    · exact used_step step (tokens.drawn g token (by simp [Phase.own,holding]))
  · rcases closed_step held stops step closed with before | ⟨h,key',holding,ended⟩
    · rcases lease_cases step leases with same | ⟨rfl,_,_,_⟩ | ⟨rfl,acquired,_⟩
      · exact stops.running g key token (same ▸ leases) before
      · exact enabled.2.1 (stops.drawn token before)
      · exact stops.running g key token ((leases_iff ..).mpr (.inl acquired)) before
    · -- The lease that ended had the token of this one, so they are one.
      have own : (s.phase g).own = some token := by
        rcases lease_cases step leases with same | ⟨rfl,_,_,_⟩ | ⟨rfl,acquired,_⟩
        · exact leases_own (same ▸ leases)
        · exact absurd (tokens.drawn h token (by simp [Phase.own,holding])) enabled.2.1
        · simp [Phase.own,acquired]
      obtain rfl := tokens.distinct g h token own (by simp [Phase.own,holding])
      rw [ended] at leases
      cases leases

end Stopping

def Refresher.Lasts (r : Refresher) (now expiry : Nat) : Prop :=
  match r.refreshing with
  | .waiting => now ≤ r.due + timing.slack ∧
      r.due + timing.ttl ≤ expiry + (r.missed + 1) * timing.renewInterval + timing.operationTimeout + timing.slack
  | .extending timeout => now ≤ timeout ∧ r.due ≤ now + timing.renewInterval ∧
      timeout + timing.renewInterval ≤ r.due + timing.slack + timing.operationTimeout ∧
      r.due + timing.ttl ≤ expiry + (r.missed + 2) * timing.renewInterval + timing.operationTimeout + timing.slack

/-- While the misses are tolerated the key does not expire. -/
theorem Refresher.Lasts.alive {timing : Timing} {r : Refresher} (lasts : r.Lasts timing now expiry)
    (tolerates : timing.Tolerates misses) (few : r.missed ≤ misses) : now < expiry := by
  obtain ⟨_,room⟩ := tolerates
  have missed : (r.missed + 1) * timing.renewInterval ≤ (misses + 1) * timing.renewInterval :=
    Nat.mul_le_mul_right _ (by omega)
  have again : (r.missed + 2) * timing.renewInterval = (r.missed + 1) * timing.renewInterval + timing.renewInterval :=
    Nat.succ_mul _ _
  unfold Lasts at lasts
  split at lasts <;> omega

theorem Refresher.Lasts.mono {timing : Timing} {r : Refresher} (lasts : r.Lasts timing now expiry)
    (later : expiry ≤ expiry') : r.Lasts timing now expiry' := by
  unfold Lasts at lasts ⊢
  split at lasts <;> simp_all <;> omega

namespace Timed

/-- Every lease outlasts the clock by what the extensions still need. -/
structure Lasting (misses : Nat) (s : Timed P G) : Prop where
  safe : Safe home s.lock
  stops : Stops s.lock
  acquired : ∀ g key token, s.lock.phase g = .acquired key token →
    s.now ≤ s.won g + timing.operationTimeout + timing.slack ∧ s.won g + timing.ttl ≤ s.expiry key
  holding : ∀ g key token, s.lock.phase g = .holding key token →
    ∃ r, s.refreshers token = some r ∧ r.key = key ∧ r.missed ≤ misses ∧ r.Lasts timing s.now (s.expiry key)
  bounded : ∀ key, s.expiry key ≤ s.now + timing.ttl

variable {home keyPrefix timing} {s : Timed P G}

omit [DecidableEq P] [DecidableEq G] in
theorem Begins.lasting (begins : s.Begins timing) (misses : Nat) : s.Lasting home timing misses where
  safe := initial_safe begins.initial
  stops := initial_stops begins.initial
  acquired g key token acquired := by simp [begins.initial.phase] at acquired
  holding g key token holding := by simp [begins.initial.phase] at holding
  bounded := begins.bounded

omit [DecidableEq P] [DecidableEq G] in
/-- A lease has not expired. -/
theorem Lasting.alive (lasting : s.Lasting home timing misses) (tolerates : timing.Tolerates misses)
    (leases : (s.lock.phase g).leases key token = true) : s.now < s.expiry key := by
  rcases (leases_iff ..).mp leases with acquired | holding
  · have room := tolerates.2
    have times := lasting.acquired g key token acquired
    omega
  · obtain ⟨r,_,_,few,lasts⟩ := lasting.holding g key token holding
    exact lasts.alive tolerates few

omit [DecidableEq P] [DecidableEq G] in
theorem Lasting.pass (lasting : s.Lasting home timing misses) (punctual : s.Punctual timing (s.now + duration)) :
    { s with now := s.now + duration }.Lasting home timing misses where
  safe := lasting.safe
  stops := lasting.stops
  acquired g key token acquired :=
    ⟨punctual.acquired g key token acquired,(lasting.acquired g key token acquired).2⟩
  holding g key token holding := by
    obtain ⟨r,refreshed,here,few,lasts⟩ := lasting.holding g key token holding
    refine ⟨r,refreshed,here,few,?_⟩
    have running := lasting.stops.running g key token ((leases_iff ..).mpr (.inr holding))
    have time := punctual.refreshers token r refreshed running
    unfold Refresher.Lasts at lasts ⊢
    split at lasts
    next waiting =>
      simp only [waiting] at time ⊢
      omega
    next extending =>
      simp only [extending] at time ⊢
      omega
  bounded key := by
    have := lasting.bounded key
    simp only
    omega

omit [DecidableEq P] in
/-- The times change with a SETNX that takes effect and with the start of a refresher. -/
theorem stamp_cases (timing : Timing) (s : Timed P G) (event : Event G) : s.stamp timing event = s ∨
    (∃ g token command key, event = .setNX g token command ∧ s.lock.phase g = .locking key ∧
      s.lock.redis key = none ∧ s.stamp timing event =
        { s with
          expiry := Function.update s.expiry key (s.now + timing.ttl)
          won := Function.update s.won g s.now }) ∨
    ∃ g key own, event = .store g ∧ s.lock.phase g = .acquired key own ∧ s.stamp timing event =
      s.setRefresher own (some ⟨key,s.now + timing.renewInterval,.waiting,0⟩) := by
  unfold stamp
  split
  next g token command =>
    split
    next key locking =>
      split
      next taken => exact .inr (.inl ⟨g,token,command,key,rfl,locking,taken.1,rfl⟩)
      next => exact .inl rfl
    next => exact .inl rfl
  next g =>
    split
    next key own acquired => exact .inr (.inr ⟨g,key,own,rfl,acquired,rfl⟩)
    next => exact .inl rfl
  next => exact .inl rfl

omit [DecidableEq P] in
@[simp] theorem stamp_now (timing : Timing) (s : Timed P G) (event : Event G) :
    (s.stamp timing event).now = s.now := by
  rcases stamp_cases timing s event with same | ⟨_,_,_,_,_,_,_,same⟩ | ⟨_,_,_,_,_,same⟩
  · rw [same]
  · rw [same]
  · rw [same]
    rfl

omit [DecidableEq P] in
/-- A key that is held keeps its expiry. -/
theorem stamp_expiry (held : s.lock.redis key = some token) (event : Event G) :
    (s.stamp timing event).expiry key = s.expiry key := by
  rcases stamp_cases timing s event with same | ⟨_,_,_,other,_,_,free,same⟩ | ⟨_,_,_,_,_,same⟩
  · rw [same]
  · rw [same]
    have ne : key ≠ other := by
      rintro rfl
      rw [held] at free
      cases free
    exact Function.update_of_ne ne _ _
  · rw [same]
    rfl

omit [DecidableEq P] in
theorem stamp_won (idle : ∀ key, s.lock.phase g ≠ .locking key) (event : Event G) :
    (s.stamp timing event).won g = s.won g := by
  rcases stamp_cases timing s event with same | ⟨h,_,_,key,_,locking,_,same⟩ | ⟨_,_,_,_,_,same⟩
  · rw [same]
  · rw [same]
    have ne : g ≠ h := by
      rintro rfl
      exact idle key locking
    exact Function.update_of_ne ne _ _
  · rw [same]
    rfl

omit [DecidableEq P] in
/-- The refresher of a lease that has been held stays what it is. -/
theorem stamp_refreshers (tokens : Tokens s.lock) (holding : s.lock.phase g = .holding key token) (event : Event G) :
    (s.stamp timing event).refreshers token = s.refreshers token := by
  rcases stamp_cases timing s event with same | ⟨_,_,_,_,_,_,_,same⟩ | ⟨h,_,own,_,acquired,same⟩
  · rw [same]
  · rw [same]
  · rw [same]
    have ne : token ≠ own := by
      rintro rfl
      obtain rfl := tokens.distinct g h token (by simp [Phase.own,holding]) (by simp [Phase.own,acquired])
      rw [holding] at acquired
      cases acquired
    exact Function.update_of_ne ne _ _

omit [DecidableEq P] in
theorem stamp_bounded (bounded : ∀ key, s.expiry key ≤ s.now + timing.ttl) (event : Event G) (key : String) :
    (s.stamp timing event).expiry key ≤ s.now + timing.ttl := by
  rcases stamp_cases timing s event with same | ⟨_,_,_,other,_,_,_,same⟩ | ⟨_,_,_,_,_,same⟩
  · rw [same]
    exact bounded key
  · rw [same]
    by_cases here : key = other
    · simp [here]
    · simpa [here] using bounded key
  · rw [same]
    exact bounded key

omit [DecidableEq P] [DecidableEq G] in
/-- No lease is in the way of a key that may expire. -/
theorem Lasting.keeps (lasting : s.Lasting home timing misses) (tolerates : timing.Tolerates misses)
    (enabled : Enabled keyPrefix timing s (.act event)) : KeepsLease s.lock event := by
  cases event with
  | expire key =>
    intro token _ g
    rw [← Bool.not_eq_true]
    intro leases
    have alive := lasting.alive tolerates leases
    have expired : s.expiry key ≤ s.now := enabled.2.2
    omega
  | _ => exact trivial

theorem Lasting.act (lasting : s.Lasting home timing misses) (tolerates : timing.Tolerates misses)
    (enabled : Enabled keyPrefix timing s (.act event)) :
    (next home keyPrefix timing s (.act event)).Lasting home timing misses := by
  have step : Step home keyPrefix s.lock event (RedisLock.next home keyPrefix s.lock event) :=
    step_of_enabled s.lock event enabled.1
  have redis (g : G) (key token : String) (leases : (s.lock.phase g).leases key token = true) :=
    lasting.safe.leased g key token leases
  refine ⟨lasting.safe.step step (lasting.keeps tolerates enabled),
    lasting.stops.step lasting.safe.tokens lasting.safe.held step enabled.1,?_,?_,?_⟩
  · intro g key token acquired
    have leases : ((RedisLock.next home keyPrefix s.lock event).phase g).leases key token = true :=
      (leases_iff ..).mpr (.inl acquired)
    rcases lease_cases step leases with same | ⟨rfl,locking,free,_⟩ | ⟨_,_,holding⟩
    · have before : s.lock.phase g = .acquired key token := same ▸ acquired
      have held := redis g key token ((leases_iff ..).mpr (.inl before))
      have idle : ∀ key, s.lock.phase g ≠ .locking key := by simp [before]
      simp only [next,stamp_now,stamp_expiry held,stamp_won idle]
      exact lasting.acquired g key token before
    · simp [next,stamp,locking,free]
      omega
    · cases acquired.symm.trans holding
  · intro g key token holding
    have leases : ((RedisLock.next home keyPrefix s.lock event).phase g).leases key token = true :=
      (leases_iff ..).mpr (.inr holding)
    rcases lease_cases step leases with same | ⟨_,_,_,acquired⟩ | ⟨rfl,acquired,_⟩
    · have before : s.lock.phase g = .holding key token := same ▸ holding
      have held := redis g key token ((leases_iff ..).mpr (.inr before))
      simp only [next,stamp_now,stamp_expiry held,stamp_refreshers lasting.safe.tokens before]
      exact lasting.holding g key token before
    · cases holding.symm.trans acquired
    · -- The ticker starts no later after the SETNX than its reply may take.
      obtain ⟨soon,ahead⟩ := lasting.acquired g key token acquired
      refine ⟨⟨key,s.now + timing.renewInterval,.waiting,0⟩,by simp [next,stamp,acquired],rfl,Nat.zero_le _,?_⟩
      simp only [next,stamp,acquired,Refresher.Lasts]
      omega
  · exact fun key => by simpa [next] using stamp_bounded lasting.bounded event key

omit [DecidableEq P] [DecidableEq G] in
/-- A refresher moves on its own; its expiry may only grow. -/
theorem Lasting.refreshed {r : Refresher} {expiry : String → Nat} (lasting : s.Lasting home timing misses)
    (later : ∀ key, s.expiry key ≤ expiry key) (bounded : ∀ key, expiry key ≤ s.now + timing.ttl)
    (lasts : ∀ g key, s.lock.phase g = .holding key token → r.key = key ∧ r.missed ≤ misses ∧
      r.Lasts timing s.now (expiry key)) :
    ({ s with expiry := expiry }.setRefresher token (some r)).Lasting home timing misses where
  safe := lasting.safe
  stops := lasting.stops
  acquired g key own acquired := by
    obtain ⟨soon,ahead⟩ := lasting.acquired g key own acquired
    exact ⟨soon,ahead.trans (later key)⟩
  holding g key own holding := by
    by_cases here : own = token
    · subst here
      exact ⟨r,Function.update_self ..,lasts g key holding⟩
    · obtain ⟨other,refreshed,same,few,before⟩ := lasting.holding g key own holding
      exact ⟨other,(Function.update_of_ne here ..).trans refreshed,same,few,before.mono (later key)⟩
  bounded := bounded

variable (keyPrefix) in
theorem Lasting.tick {r : Refresher} (lasting : s.Lasting home timing misses) (found : s.refreshers token = some r)
    (waiting : r.refreshing = .waiting) (due : r.due ≤ s.now) :
    (next home keyPrefix timing s (.tick token)).Lasting home timing misses := by
  simp only [next,found]
  refine lasting.refreshed (fun _ => Nat.le_refl _) lasting.bounded fun g key holding => ?_
  obtain ⟨other,refreshed,same,few,lasts⟩ := lasting.holding g key token holding
  obtain rfl : r = other := Option.some.inj (found.symm.trans refreshed)
  refine ⟨same,few,?_⟩
  have again : (r.missed + 2) * timing.renewInterval = (r.missed + 1) * timing.renewInterval + timing.renewInterval :=
    Nat.succ_mul _ _
  simp only [Refresher.Lasts,waiting] at lasts ⊢
  omega

variable (keyPrefix) in
theorem Lasting.extend {r : Refresher} (lasting : s.Lasting home timing misses) (tolerates : timing.Tolerates misses)
    (found : s.refreshers token = some r) (extending : r.refreshing = .extending timeout)
    (responsive : Responsive misses s (.extend token command)) :
    (next home keyPrefix timing s (.extend token command)).Lasting home timing misses := by
  have later (key : String) : s.expiry key ≤ (s.extend timing token r command).expiry key := by
    have bound := lasting.bounded key
    simp only [Timed.extend]
    split
    · by_cases here : key = r.key
      · subst here
        simpa using bound
      · simp [here]
    · exact Nat.le_refl _
  have bounded (key : String) : (s.extend timing token r command).expiry key ≤ s.now + timing.ttl := by
    have bound := lasting.bounded key
    simp only [Timed.extend]
    split
    · by_cases here : key = r.key
      · simp [here]
      · simpa [here] using bound
    · exact bound
  simp only [next,found]
  refine lasting.refreshed later bounded fun g key holding => ?_
  obtain ⟨other,refreshed,same,few,lasts⟩ := lasting.holding g key token holding
  obtain rfl : r = other := Option.some.inj (found.symm.trans refreshed)
  have leases := (leases_iff ..).mpr (.inr holding)
  have held : s.lock.redis r.key = some token := same ▸ lasting.safe.leased g key token leases
  have running := lasting.stops.running g key token leases
  have short := tolerates.1
  simp only [Refresher.Lasts,extending] at lasts
  refine ⟨same,?_,?_⟩
  · rcases responsive r found running with ⟨done,_⟩ | allowed
    · simp [done,held]
    · split
      · exact Nat.zero_le _
      · exact allowed
  · have grown := later key
    simp only [Refresher.Lasts]
    split
    next done =>
      -- The key now expires a whole TTL after a moment at or after the tick.
      have extended : (s.extend timing token r command).expiry key = s.now + timing.ttl := by
        simp [Timed.extend,done.1,held,← same]
      simp only [Timed.extend] at extended ⊢
      rw [extended]
      omega
    next missed =>
      have again : (r.missed + 1 + 1) * timing.renewInterval = (r.missed + 2) * timing.renewInterval := rfl
      simp only [Timed.extend] at grown ⊢
      omega

variable (keyPrefix) in
theorem Lasting.quit (lasting : s.Lasting home timing misses) (closed : token ∈ s.lock.closed) :
    (next home keyPrefix timing s (.quit token)).Lasting home timing misses where
  safe := lasting.safe
  stops := lasting.stops
  acquired := lasting.acquired
  holding g key own holding := by
    have ne : own ≠ token := by
      rintro rfl
      exact lasting.stops.running g key own ((leases_iff ..).mpr (.inr holding)) closed
    obtain ⟨r,refreshed,rest⟩ := lasting.holding g key own holding
    exact ⟨r,(Function.update_of_ne ne ..).trans refreshed,rest⟩
  bounded := lasting.bounded

theorem run_lasting {reached : Timed P G} (tolerates : timing.Tolerates misses) (begins : s.Begins timing)
    (run : ((machine home keyPrefix timing).restrict (Responsive misses)).Run s trace reached) :
    reached.Lasting home timing misses := by
  refine run.invariant (Lasting home timing misses) ?_ (begins.lasting misses)
  rintro u event lasting ⟨enabled,responsive⟩
  cases event with
  | pass duration => exact lasting.pass enabled
  | act event => exact lasting.act tolerates enabled
  | tick token =>
    obtain ⟨r,found,waiting,due⟩ := enabled
    exact lasting.tick keyPrefix found waiting due
  | extend token command =>
    obtain ⟨r,timeout,found,extending⟩ := enabled
    exact lasting.extend keyPrefix tolerates found extending responsive
  | quit token => exact lasting.quit keyPrefix enabled

/-- On machines that are less than five seconds late, no lock is lost under its holder as long as
no two extensions in a row fail: the key of every goroutine between Lock and Unlock is there with
its token and has time left, so there is at most one such goroutine for a set of names. A key
nobody extends any more is gone after its TTL. -/
theorem lock_outlives_a_miss (home : G → P) (keyPrefix : String) (slack : Nat) (prompt : slack < 5000)
    (s reached : Timed P G) (trace : List (TimedEvent G)) (begins : s.Begins (.source slack))
    (run : ((machine home keyPrefix (.source slack)).restrict (Responsive 1)).Run s trace reached) :
    (∀ g key own, reached.lock.phase g = .holding key own →
      reached.lock.redis key = some own ∧ reached.now < reached.expiry key) ∧
    (∀ subjectName altNames, (inside keyPrefix reached.lock subjectName altNames).Subsingleton) ∧
    ∀ key, reached.expiry key ≤ reached.now + redisLockTTL := by
  have tolerates : (Timing.source slack).Tolerates 1 := by
    simp only [Timing.source,Timing.Tolerates,redisLockTTL,redisLockRenewInterval,redisOperationTimeout]
    omega
  have lasting := run_lasting tolerates begins run
  refine ⟨fun g key own holding => ?_,fun subjectName altNames g inG h inH => ?_,lasting.bounded⟩
  · have leases := (leases_iff ..).mpr (.inr holding)
    exact ⟨lasting.safe.leased g key own leases,lasting.alive tolerates leases⟩
  · obtain ⟨_,holdsG⟩ := (mem_inside_iff ..).mp inG
    obtain ⟨_,holdsH⟩ := (mem_inside_iff ..).mp inH
    exact lasting.safe.unique holdsG holdsH

end Timed

namespace Sample

def key : String := lockKey "centauri" "example.com" []

def idle : Timed Bool Bool := ⟨quiet,0,fun _ => 0,fun _ => 0,fun _ => none⟩

theorem idle_begins (timing : Timing) : idle.Begins timing :=
  ⟨quiet_initial,fun _ => rfl,fun _ => Nat.zero_le _⟩

def taking : List (Event Bool) := [.lock false "example.com" [],.setNX false "aa" .ok,.store false]

def held (time due : Nat) (refreshing : Refreshing) (missed : Nat) : Timed Bool Bool where
  lock := (RedisLock.machine id "centauri").after quiet taking
  now := time
  expiry := Function.update (fun _ => 0) key (0 + (Timing.source 0).ttl)
  won := Function.update (fun _ => 0) false 0
  refreshers := Function.update (fun _ => none) "aa" (some ⟨key,due,refreshing,missed⟩)

theorem taken_phase (g : Bool) : ((RedisLock.machine id "centauri").after (quiet : State Bool Bool) taking).phase g =
    if g then .outside else .holding key "aa" := by
  cases g <;> rfl

theorem held_refresher (time due missed : Nat) (refreshing : Refreshing) :
    (held time due refreshing missed).refreshers "aa" = some ⟨key,due,refreshing,missed⟩ := by
  simp [held]

theorem held_punctual (bound : later ≤ due) :
    (held time due .waiting missed).Punctual (.source 0) later := by
  refine ⟨fun token r found _ => ?_,fun g key token acquired => ?_⟩
  · by_cases own : token = "aa"
    · rw [own,held_refresher,Option.some.injEq] at found
      subst found
      exact bound
    · simp [held,own] at found
  · rw [show (held time due .waiting missed).lock.phase g = _ from taken_phase g] at acquired
    split at acquired <;> cases acquired

def machine (misses : Nat) : Machine (Timed Bool Bool) (TimedEvent Bool) :=
  (Timed.machine id "centauri" (.source 0)).restrict (Timed.Responsive misses)

variable {misses : Nat}

theorem taken : (machine misses).Run idle (taking.map .act) (held 0 20000 .waiting 0) := by
  rw [show 20000 = 0 + (Timing.source 0).renewInterval by decide]
  exact .cons ⟨⟨rfl,trivial⟩,trivial⟩ (.cons ⟨⟨⟨rfl,List.not_mem_nil,by decide⟩,trivial⟩,trivial⟩
    (.cons ⟨⟨rfl,trivial⟩,trivial⟩ .nil))

/-- The extension at the next tick fails. -/
theorem missed_once (early : time ≤ due) (allowed : missed + 1 ≤ misses) :
    (machine misses).Run (held time due .waiting missed) [.pass (due - time),.tick "aa",.extend "aa" .failed]
      (held due (due + 20000) .waiting (missed + 1)) := by
  have passed : time + (due - time) = due := by omega
  have waited : (machine misses).next (held time due .waiting missed) (.pass (due - time)) =
      held due due .waiting missed := by
    simp [machine,Timed.machine,Machine.restrict,Timed.next,held,passed]
  have ticked : (machine misses).next (held due due .waiting missed) (.tick "aa") =
      held due (due + 20000) (.extending (due + 5000)) missed := by
    simp [machine,Timed.machine,Machine.restrict,Timed.next,Timed.setRefresher,held,Timing.source,
      redisLockRenewInterval,redisLockTTL,redisOperationTimeout]
  have failed : (machine misses).next (held due (due + 20000) (.extending (due + 5000)) missed)
      (.extend "aa" .failed) = held due (due + 20000) .waiting (missed + 1) := by
    simp [machine,Timed.machine,Machine.restrict,Timed.next,Timed.extend,held]
  refine .cons ⟨held_punctual (Nat.le_of_eq passed),trivial⟩ (waited ▸ ?_)
  refine .cons ⟨⟨_,held_refresher ..,rfl,Nat.le_refl due⟩,trivial⟩ (ticked ▸ ?_)
  refine .cons ⟨⟨_,_,held_refresher ..,rfl⟩,fun r found _ => .inr ?_⟩ (failed ▸ .nil)
  rw [held_refresher,Option.some.injEq] at found
  exact found ▸ allowed

/-- One extension fails, and the lock is still held when the next is due. -/
theorem miss_survived : (held 20000 40000 .waiting 1).lock.redis key = some "aa" ∧
    (held 20000 40000 .waiting 1).now < (held 20000 40000 .waiting 1).expiry key := by
  have run : (machine 1).Run idle _ (held 20000 40000 .waiting 1) :=
    taken.append (missed_once (Nat.zero_le _) (Nat.le_refl _))
  have kept := Timed.lock_outlives_a_miss id "centauri" 0 (by decide) _ _ _ (idle_begins _) run
  exact kept.1 false key "aa" (taken_phase false)

/-- Two in a row are too many: the key expires when the third is due, with `false` still inside. -/
theorem second_miss_loses : ∃ trace reached, (machine 2).Run idle trace reached ∧
    reached.lock.phase false = .holding key "aa" ∧ reached.lock.redis key = none := by
  have missed : (machine 2).Run idle _ (held 40000 60000 .waiting 2) :=
    (taken.append (missed_once (Nat.zero_le _) (by decide))).append (missed_once (by decide) (by decide))
  have passed : (machine 2).next (held 40000 60000 .waiting 2) (.pass 20000) = held 60000 60000 .waiting 2 := by
    simp [machine,Timed.machine,Machine.restrict,Timed.next,held]
  have punctual : (machine 2).Enabled (held 40000 60000 .waiting 2) (.pass 20000) :=
    ⟨held_punctual (Nat.le_refl _),trivial⟩
  have late : (held 60000 60000 .waiting 2).expiry key ≤ 60000 := by
    simp [held,Timing.source,redisLockTTL]
  have expires : (machine 2).Enabled (held 60000 60000 .waiting 2) (.act (.expire key)) :=
    ⟨⟨trivial,rfl,late⟩,trivial⟩
  have run := missed.snoc punctual
  rw [passed] at run
  refine ⟨_,_,run.snoc expires,taken_phase false,?_⟩
  simp [machine,Timed.machine,Machine.restrict,Timed.next,RedisLock.next,State.setRedis]

end Sample

end Centauri.RedisLock
