import Mathlib.Data.Fintype.Basic
import Centauri.RedisLock

/-! Who may release what. `Step` lists once what each event can do to a state; every
invariant below is a case analysis over it. -/
namespace Centauri.RedisLock

open RedisStore

variable {P G : Type} [DecidableEq P] [DecidableEq G] {home : G → P} {keyPrefix : String}

def State.draw (s : State P G) (token : String) : State P G := { s with used := token :: s.used }

inductive Step (home : G → P) (keyPrefix : String) (s : State P G) : Event G → State P G → Prop where
  | lock : s.phase g = .outside →
      Step home keyPrefix s (.lock g subjectName altNames)
        (s.at g (.locking (lockKey keyPrefix subjectName altNames)))
  | won : s.phase g = .locking key → token ∉ s.used → token ≠ "" → s.redis key = none →
      Step home keyPrefix s (.setNX g token .ok)
        (((s.draw token).setRedis key (some token)).at g (.acquired key token))
  | orphaned : s.phase g = .locking key → token ≠ "" → s.redis key = none →
      Step home keyPrefix s (.setNX g token .applied) ((s.draw token).setRedis key (some token))
  | missed : s.phase g = .locking key → token ≠ "" →
      Step home keyPrefix s (.setNX g token command) (s.draw token)
  | store : s.phase g = .acquired key own →
      Step home keyPrefix s (.store g)
        ((s.write (home g) key ⟨own,some own⟩).at g (.holding key own))
  | unlockEmpty : s.phase g = .holding key own → (s.fields (home g) key).token = "" →
      Step home keyPrefix s (.unlock g subjectName altNames)
        ((s.write (home g) key .cleared).at g .outside)
  | unlock : s.phase g = .holding key own → (s.fields (home g) key).token ≠ "" →
      Step home keyPrefix s (.unlock g subjectName altNames)
        { (s.write (home g) key .cleared).at g (.releasing key own (s.fields (home g) key).token) with
          closed := (s.fields (home g) key).stopChan.toList ++ s.closed }
  | deleted : s.phase g = .releasing key own taken → s.redis key = some taken →
      Step home keyPrefix s (.release g command) ((s.setRedis key none).at g .outside)
  | kept : s.phase g = .releasing key own taken →
      Step home keyPrefix s (.release g command) (s.at g .outside)
  | refresh : Step home keyPrefix s (.refresh key token command) s
  | expire : Step home keyPrefix s (.expire key) (s.setRedis key none)

theorem step_of_enabled (s : State P G) (event : Event G) (enabled : Enabled keyPrefix s event) :
    Step home keyPrefix s event (next home keyPrefix s event) := by
  cases event with
  | lock g subjectName altNames => exact .lock enabled
  | setNX g token command =>
    obtain ⟨trying,fresh,nonempty⟩ := enabled
    cases phase : s.phase g <;> simp only [phase,Phase.isLocking,Bool.false_eq_true] at trying
    next key =>
      simp only [next,phase]
      split
      next free =>
        cases command with
        | ok => exact .won phase fresh nonempty free
        | failed => exact .missed phase nonempty
        | applied => exact .orphaned phase nonempty free
      next => exact .missed phase nonempty
  | store g =>
    cases phase : s.phase g <;> simp only [Enabled,phase,Phase.isAcquired,Bool.false_eq_true] at enabled
    next key own =>
      simp only [next,phase]
      exact .store phase
  | unlock g subjectName altNames =>
    cases phase : s.phase g <;> simp only [Enabled,phase,Phase.isHolding,Bool.false_eq_true] at enabled
    next key own =>
      simp only [next,phase]
      split
      next empty => exact .unlockEmpty phase empty
      next full => exact .unlock phase full
  | release g command =>
    cases phase : s.phase g <;> simp only [Enabled,phase,Phase.isReleasing,Bool.false_eq_true] at enabled
    next key own taken =>
      simp only [next,phase]
      split
      next current => exact .deleted phase current.2
      next => exact .kept phase
  | refresh key token command => exact .refresh
  | expire key => exact .expire

omit [DecidableEq P] in
@[simp] theorem at_self (s : State P G) (g : G) (phase : Phase) : (s.at g phase).phase g = phase :=
  Function.update_self ..

omit [DecidableEq P] in
@[simp] theorem at_other (s : State P G) (phase : Phase) (ne : other ≠ g) :
    (s.at g phase).phase other = s.phase other :=
  Function.update_of_ne ne ..

omit [DecidableEq P] in
theorem at_cases {s : State P G} (moved : (s.at g phase).phase other = result) :
    other = g ∧ phase = result ∨ other ≠ g ∧ s.phase other = result := by
  by_cases same : other = g
  · subst same
    exact .inl ⟨rfl,by simpa using moved⟩
  · exact .inr ⟨same,by simpa [same] using moved⟩

omit [DecidableEq G] in
@[simp] theorem write_self (s : State P G) (p : P) (key : String) (fields : Fields) :
    (s.write p key fields).fields p key = fields := by
  simp [State.write]

omit [DecidableEq G] in
theorem write_other (s : State P G) (p q : P) (key k : String) (fields : Fields)
    (ne : ¬(q = p ∧ k = key)) : (s.write p key fields).fields q k = s.fields q k := by
  by_cases same : q = p
  · subst same
    have other : k ≠ key := fun eq => ne ⟨rfl,eq⟩
    simp [State.write,other]
  · simp [State.write,same]

def Phase.own : Phase → Option String
  | .acquired _ own | .holding _ own | .releasing _ own _ => some own
  | _ => none

/-- Tokens are drawn once, so no two goroutines own the same one. -/
structure Tokens (s : State P G) : Prop where
  drawn : ∀ g token, (s.phase g).own = some token → token ∈ s.used
  distinct : ∀ g g' token, (s.phase g).own = some token → (s.phase g').own = some token → g = g'
  nonempty : "" ∉ s.used

omit [DecidableEq P] [DecidableEq G] in
theorem initial_tokens {s : State P G} (initial : Initial s) : Tokens s := by
  refine ⟨fun g token owns => ?_,fun g g' token owns => ?_,initial.used⟩ <;>
    simp [initial.phase,Phase.own] at owns

omit [DecidableEq P] in
/-- A goroutine that keeps its token or gives it up leaves the others' alone. -/
theorem Tokens.at {s : State P G} (tokens : Tokens s) (g : G) (phase : Phase)
    (own : ∀ token, phase.own = some token → (s.phase g).own = some token) :
    Tokens (s.at g phase) := by
  have back : ∀ h token, ((s.at g phase).phase h).own = some token → (s.phase h).own = some token := by
    intro h token owns
    by_cases same : h = g
    · subst same
      rw [at_self] at owns
      exact own token owns
    · rwa [at_other s phase same] at owns
  exact ⟨fun h token owns => tokens.drawn h token (back h token owns),
    fun h h' token owns owns' => tokens.distinct h h' token (back h token owns) (back h' token owns'),
    tokens.nonempty⟩

omit [DecidableEq P] [DecidableEq G] in
theorem Tokens.draw {s : State P G} (tokens : Tokens s) (nonempty : token ≠ "") :
    Tokens (s.draw token) := by
  refine ⟨fun g t owns => List.mem_cons_of_mem _ (tokens.drawn g t owns),tokens.distinct,?_⟩
  intro member
  rcases List.mem_cons.mp member with eq | member
  · exact nonempty eq.symm
  · exact tokens.nonempty member

omit [DecidableEq P] in
/-- Only a SETNX that drew a fresh token gives a goroutine a new one. -/
theorem Tokens.win {s : State P G} (tokens : Tokens s) (g : G) (key : String)
    (fresh : token ∉ s.used) (nonempty : token ≠ "") :
    Tokens ((s.draw token).at g (.acquired key token)) := by
  have grown := tokens.draw nonempty
  have other : ∀ h t, h ≠ g → (((s.draw token).at g (.acquired key token)).phase h).own = some t →
      (s.phase h).own = some t := by
    intro h t ne owns
    rwa [at_other _ _ ne] at owns
  have self : ∀ t, (((s.draw token).at g (.acquired key token)).phase g).own = some t → t = token := by
    intro t owns
    rw [at_self] at owns
    exact (Option.some.inj owns).symm
  refine ⟨?_,?_,grown.nonempty⟩
  · intro h t owns
    by_cases same : h = g
    · subst same
      exact List.mem_cons.mpr (.inl (self t owns))
    · exact List.mem_cons_of_mem _ (tokens.drawn h t (other h t same owns))
  · intro h h' t owns owns'
    by_cases same : h = g <;> by_cases same' : h' = g
    · exact same.trans same'.symm
    · subst same
      exact absurd (self t owns ▸ tokens.drawn h' t (other h' t same' owns')) fresh
    · subst same'
      exact absurd (self t owns' ▸ tokens.drawn h t (other h t same owns)) fresh
    · exact tokens.distinct h h' t (other h t same owns) (other h' t same' owns')

omit [DecidableEq P] [DecidableEq G] in
/-- The part of a state `Tokens` speaks about. -/
theorem Tokens.congr {s t : State P G} (tokens : Tokens s) (phase : t.phase = s.phase)
    (used : t.used = s.used) : Tokens t := by
  constructor
  · rw [phase,used]; exact tokens.drawn
  · rw [phase]; exact tokens.distinct
  · rw [used]; exact tokens.nonempty

theorem step_tokens {s t : State P G} (tokens : Tokens s) (step : Step home keyPrefix s event t) :
    Tokens t := by
  cases step with
  | lock _ => exact tokens.at _ _ (by simp [Phase.own])
  | won _ fresh nonempty _ => exact (tokens.win _ _ fresh nonempty).congr rfl rfl
  | orphaned _ nonempty _ => exact (tokens.draw nonempty).congr rfl rfl
  | missed _ nonempty => exact tokens.draw nonempty
  | @store g key own phase =>
    exact (tokens.at g (.holding key own) (by simp [Phase.own,phase])).congr rfl rfl
  | @unlockEmpty g key own _ _ phase _ =>
    exact (tokens.at g .outside (by simp [Phase.own])).congr rfl rfl
  | @unlock g key own _ _ phase _ =>
    exact (tokens.at g (.releasing key own (s.fields (home g) key).token)
      (by simp [Phase.own,phase])).congr rfl rfl
  | @deleted g _ _ _ _ _ _ => exact (tokens.at g .outside (by simp [Phase.own])).congr rfl rfl
  | kept _ => exact tokens.at _ _ (by simp [Phase.own])
  | refresh => exact tokens
  | expire => exact tokens.congr rfl rfl

/-- The first goroutine has won the key that the second still holds. -/
def Phase.meets : Phase → Phase → Bool
  | .acquired key _, .holding k _ => k == key
  | _, _ => false

/-- The shared object holds the token of the goroutine that holds the lock, and Unlock
took the caller's own. -/
structure Held (home : G → P) (s : State P G) : Prop where
  holding : ∀ g key own, s.phase g = .holding key own → (s.fields (home g) key).token = own
  releasing : ∀ g key own taken, s.phase g = .releasing key own taken → taken = own

def Alone (home : G → P) (s : State P G) : Event G → Prop
  | .store g => ∀ h, home h = home g → ¬(s.phase g).meets (s.phase h)
  | _ => True

instance [Fintype G] (s : State P G) : ∀ event, Decidable (Alone home s event)
  | .store g => inferInstanceAs (Decidable (∀ h, home h = home g → ¬(s.phase g).meets (s.phase h)))
  | .lock _ _ _ | .setNX _ _ _ | .unlock _ _ _ | .release _ _ | .refresh _ _ _ | .expire _ =>
    inferInstanceAs (Decidable True)

omit [DecidableEq P] [DecidableEq G] in
theorem initial_held {s : State P G} (initial : Initial s) : Held home s := by
  constructor <;> intros <;> simp_all [initial.phase]

omit [DecidableEq P] in
/-- Fields are untouched and a goroutine moves to a phase in which it holds nothing. -/
theorem Held.at {s : State P G} (held : Held home s) (g : G) (phase : Phase)
    (idle : ∀ key own, phase ≠ .holding key own) (clean : ∀ key own taken, phase ≠ .releasing key own taken) :
    Held home (s.at g phase) := by
  constructor
  · intro h key own moved
    rcases at_cases moved with ⟨_,eq⟩ | ⟨_,kept⟩
    · exact absurd eq (idle key own)
    · exact held.holding h key own kept
  · intro h key own taken moved
    rcases at_cases moved with ⟨_,eq⟩ | ⟨_,kept⟩
    · exact absurd eq (clean key own taken)
    · exact held.releasing h key own taken kept

omit [DecidableEq P] [DecidableEq G] in
theorem Held.congr {s t : State P G} (held : Held home s) (phase : t.phase = s.phase)
    (fields : t.fields = s.fields) : Held home t := by
  constructor
  · rw [phase,fields]; exact held.holding
  · rw [phase]; exact held.releasing

/-- Writing a lock object disturbs only goroutines of the process that hold that lock. -/
theorem Held.write {s : State P G} (held : Held home s) (g : G) (key : String) (fields : Fields)
    (phase : Phase) (nobody : ∀ h, h ≠ g → home h = home g → ∀ own, s.phase h ≠ .holding key own)
    (own : ∀ k token, phase = .holding k token → k = key ∧ fields.token = token)
    (clean : ∀ k token taken, phase = .releasing k token taken → taken = token) :
    Held home ((s.write (home g) key fields).at g phase) := by
  constructor
  · intro h k token moved
    rcases at_cases moved with ⟨rfl,eq⟩ | ⟨ne,kept⟩
    · obtain ⟨rfl,same⟩ := own k token eq
      exact (congrArg Fields.token (write_self ..)).trans same
    · have apart : ¬(home h = home g ∧ k = key) := by
        rintro ⟨same,rfl⟩
        exact nobody h ne same token kept
      refine Eq.trans (congrArg Fields.token ?_) (held.holding h k token kept)
      exact write_other s (home g) (home h) key k fields apart
  · intro h k token taken moved
    rcases at_cases moved with ⟨rfl,eq⟩ | ⟨_,kept⟩
    · exact clean k token taken eq
    · exact held.releasing h k token taken kept

omit [DecidableEq P] [DecidableEq G] in
/-- Two goroutines of one process never hold one lock object. -/
theorem Held.exclusive {s : State P G} (tokens : Tokens s) (held : Held home s)
    (hg : s.phase g = .holding key own) (hh : s.phase h = .holding key own')
    (same : home h = home g) : h = g := by
  have eq : own' = own := by
    rw [← held.holding h key own' hh,same,held.holding g key own hg]
  apply tokens.distinct h g own
  · simp [Phase.own,hh,eq]
  · simp [Phase.own,hg]

theorem step_held {s t : State P G} (tokens : Tokens s) (held : Held home s)
    (step : Step home keyPrefix s event t) (alone : Alone home s event) : Held home t := by
  cases step with
  | lock _ => exact held.at _ _ (by simp) (by simp)
  | @won g key token _ _ _ _ =>
    exact (held.at g (.acquired key token) (by simp) (by simp)).congr rfl rfl
  | orphaned _ _ _ => exact held.congr rfl rfl
  | missed _ _ => exact held.congr rfl rfl
  | @store g key own phase =>
    refine held.write g key _ _ (fun h _ same other holding => ?_) ?_ (by simp)
    · exact alone h same (by simp [Phase.meets,phase,holding])
    · intro k token eq
      simp only [Phase.holding.injEq] at eq
      exact ⟨eq.1.symm,eq.2⟩
  | @unlockEmpty g key own _ _ phase _ =>
    refine held.write g key _ _ (fun h ne same other phase' => ?_) (by simp) (by simp)
    exact ne (held.exclusive tokens phase phase' same)
  | @unlock g key own _ _ phase _ =>
    refine Held.congr (held.write g key .cleared
      (.releasing key own (s.fields (home g) key).token) ?_ (by simp) ?_) rfl rfl
    · exact fun h ne same other phase' => ne (held.exclusive tokens phase phase' same)
    · intro k token taken eq
      simp only [Phase.releasing.injEq] at eq
      obtain ⟨rfl,rfl,rfl⟩ := eq
      exact held.holding g key own phase
  | @deleted g key own taken command _ _ =>
    exact (held.at g .outside (by simp) (by simp)).congr rfl rfl
  | kept _ => exact held.at _ _ (by simp) (by simp)
  | refresh => exact held
  | expire => exact held.congr rfl rfl

/-- The script a goroutine is about to run deletes a token that its own Lock call did not store. -/
def WrongRelease (s : State P G) : Event G → Prop
  | .release g command => ∃ key own taken, s.phase g = .releasing key own taken ∧
      command ≠ .failed ∧ s.redis key = some taken ∧ taken ≠ own
  | _ => False

theorem run_held {s reached : State P G} (initial : Initial s)
    (run : ((machine home keyPrefix).restrict (Alone home)).Run s trace reached) :
    Tokens reached ∧ Held home reached := by
  refine run.invariant (fun t => Tokens t ∧ Held home t) ?_ ⟨initial_tokens initial,initial_held initial⟩
  rintro t event ⟨tokens,held⟩ ⟨enabled,alone⟩
  have step : Step home keyPrefix t event _ := step_of_enabled t event enabled
  exact ⟨step_tokens tokens step,step_held tokens held step alone⟩

/-- As long as no Lock call writes its token over that of a goroutine of the same
process which still holds the lock, an Unlock only ever deletes the caller's own
token, whenever the key expires. -/
theorem unlock_deletes_own (s reached : State P G) (trace : List (Event G)) (initial : Initial s)
    (run : ((machine home keyPrefix).restrict (Alone home)).Run s trace reached) (event : Event G) :
    ¬WrongRelease reached event := by
  cases event with
  | release g command =>
    rintro ⟨key,own,taken,phase,_,_,wrong⟩
    exact wrong ((run_held initial run).2.releasing g key own taken phase)
  | _ => exact id

/-- The condition is sharp: a Lock call that does overwrite such a token has its key
deleted by the other goroutine's Unlock. -/
theorem wrongRelease_of_meets {s : State P G} (tokens : Tokens s)
    (won : s.phase g = .acquired (lockKey keyPrefix subjectName altNames) own)
    (holds : s.phase h = .holding (lockKey keyPrefix subjectName altNames) other)
    (same : home h = home g) (current : s.redis (lockKey keyPrefix subjectName altNames) = some own) :
    WrongRelease (next home keyPrefix (next home keyPrefix s (.store g))
      (.unlock h subjectName altNames)) (.release h .ok) := by
  have ne : h ≠ g := by
    rintro rfl
    rw [won] at holds
    cases holds
  have nonempty : own ≠ "" := by
    rintro rfl
    exact tokens.nonempty (tokens.drawn g "" (by simp [Phase.own,won]))
  have differ : own ≠ other := by
    rintro rfl
    exact ne (tokens.distinct h g own (by simp [Phase.own,holds]) (by simp [Phase.own,won]))
  refine ⟨lockKey keyPrefix subjectName altNames,other,own,?_,by decide,?_,differ⟩
  · simp [next,won,ne,holds,State.at,State.write,same,nonempty]
  · simpa [next,won,ne,holds,State.at,State.write,same,nonempty] using current

def quiet : State P G :=
  { redis := fun _ => none,fields := fun _ _ => .cleared,phase := fun _ => .outside,used := [],
    closed := [] }

omit [DecidableEq P] [DecidableEq G] in
theorem quiet_initial : Initial (quiet : State P G) :=
  ⟨fun _ => rfl,fun _ _ => rfl,by simp [quiet],rfl⟩

/-- The lock of `false` expires while it is held; `true`, in the same process, takes it
and overwrites the shared token before `false` unlocks. -/
def overtaken : List (Event Bool) :=
  [.lock false "example.com" [],.setNX false "aa" .ok,.store false,.expire "centauri:lock:example.com",
    .lock true "example.com" [],.setNX true "bb" .ok,.store true,.unlock false "example.com" []]

theorem unlock_deletes_sibling : ∃ reached : State Unit Bool,
    (machine (fun _ => ()) "centauri").Run quiet overtaken reached ∧
    reached.phase true = .holding "centauri:lock:example.com" "bb" ∧
    Enabled "centauri" reached (.release false .ok) ∧ WrongRelease reached (.release false .ok) ∧
    (next (fun _ => ()) "centauri" reached (.release false .ok)).redis
      "centauri:lock:example.com" = none := by
  refine ⟨_,Machine.run_of_allows (by decide),by decide,by decide,?_,by decide⟩
  exact ⟨"centauri:lock:example.com","aa","bb",by decide,by decide,by decide,by decide⟩

/-- Two processes, where the same events are harmless: the second one's token is safe. -/
theorem unlock_spares_other_process :
    Enabled "centauri" ((machine id "centauri").after (quiet : State Bool Bool) overtaken)
      (.release false .ok) ∧
    ¬WrongRelease ((machine id "centauri").after (quiet : State Bool Bool) overtaken)
      (.release false .ok) :=
  ⟨by decide,unlock_deletes_own quiet _ overtaken quiet_initial
    (Machine.run_of_allows (m := (machine id "centauri").restrict (Alone id)) (by decide)) _⟩

end Centauri.RedisLock
