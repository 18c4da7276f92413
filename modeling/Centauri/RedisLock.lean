import Centauri.Machine
import Centauri.RedisStore

/-! The distributed lock. Redis keeps a token per lock key; each process keeps one
`redisLock` object per key, shared by its goroutines, with the token of the Lock
call that wrote it last. A goroutine itself remembers nothing between Lock and
Unlock: `own` below is the token its own Lock call stored, for the statements only. -/
namespace Centauri.RedisLock

open RedisStore

/-- The mutable fields of a `redisLock`. A stop channel is named by the token of the
Lock call that made it. -/
structure Fields where
  token : String
  stopChan : Option String
  deriving DecidableEq, Repr

def Fields.cleared : Fields := ⟨"",none⟩

/-- Where a goroutine stands. `acquired` is the window between a successful SETNX and
the write of the shared fields; `releasing` the one between reading them and the script. -/
inductive Phase where
  | outside
  | locking (key : String)
  | acquired (key own : String)
  | holding (key own : String)
  | releasing (key own taken : String)
  deriving DecidableEq, Repr

/-- A Redis command is answered, fails without effect, or takes effect and reports an error. -/
inductive Command where
  | ok
  | failed
  | applied
  deriving DecidableEq, Repr

structure State (P G : Type) where
  redis : String → Option String
  fields : P → String → Fields
  phase : G → Phase
  /-- Tokens drawn so far, those found in Redis at the start included. -/
  used : List String
  /-- Stop channels closed so far. -/
  closed : List String

inductive Event (G : Type) where
  | lock (g : G) (subjectName : String) (altNames : List String)
  | setNX (g : G) (token : String) (command : Command)
  | store (g : G)
  | unlock (g : G) (subjectName : String) (altNames : List String)
  | release (g : G) (command : Command)
  | refresh (key token : String) (command : Command)
  | expire (key : String)
  deriving DecidableEq

variable {P G : Type} [DecidableEq P] [DecidableEq G] (home : G → P) (keyPrefix : String)

def Phase.isLocking : Phase → Bool
  | .locking _ => true
  | _ => false

def Phase.isAcquired : Phase → Bool
  | .acquired _ _ => true
  | _ => false

def Phase.isHolding (key : String) : Phase → Bool
  | .holding k _ => k == key
  | _ => false

def Phase.isReleasing : Phase → Bool
  | .releasing _ _ _ => true
  | _ => false

/-- Fresh tokens are the assumption on `newLockToken`. Expiry is always possible. -/
def Enabled (s : State P G) : Event G → Prop
  | .lock g _ _ => s.phase g = .outside
  | .setNX g token _ => (s.phase g).isLocking = true ∧ token ∉ s.used ∧ token ≠ ""
  | .store g => (s.phase g).isAcquired = true
  | .unlock g subjectName altNames =>
    (s.phase g).isHolding (lockKey keyPrefix subjectName altNames) = true
  | .release g _ => (s.phase g).isReleasing = true
  | .refresh _ token _ => token ∈ s.used
  | .expire _ => True

instance (s : State P G) : ∀ event, Decidable (Enabled keyPrefix s event)
  | .lock g _ _ => inferInstanceAs (Decidable (s.phase g = .outside))
  | .setNX g token _ =>
    inferInstanceAs (Decidable ((s.phase g).isLocking = true ∧ token ∉ s.used ∧ token ≠ ""))
  | .store g => inferInstanceAs (Decidable ((s.phase g).isAcquired = true))
  | .unlock g subjectName altNames => inferInstanceAs
    (Decidable ((s.phase g).isHolding (lockKey keyPrefix subjectName altNames) = true))
  | .release g _ => inferInstanceAs (Decidable ((s.phase g).isReleasing = true))
  | .refresh _ token _ => inferInstanceAs (Decidable (token ∈ s.used))
  | .expire _ => inferInstanceAs (Decidable True)

def State.at (s : State P G) (g : G) (phase : Phase) : State P G :=
  { s with phase := Function.update s.phase g phase }

def State.write (s : State P G) (p : P) (key : String) (fields : Fields) : State P G :=
  { s with fields := Function.update s.fields p (Function.update (s.fields p) key fields) }

def State.setRedis (s : State P G) (key : String) (value : Option String) : State P G :=
  { s with redis := Function.update s.redis key value }

/-- A refresh script moves only the TTL, which `expire` leaves arbitrary. -/
def next (s : State P G) : Event G → State P G
  | .lock g subjectName altNames => s.at g (.locking (lockKey keyPrefix subjectName altNames))
  | .setNX g token command =>
    let drawn := { s with used := token :: s.used }
    match s.phase g with
    | .locking key =>
      if s.redis key = none then
        match command with
        | .ok => (drawn.setRedis key (some token)).at g (.acquired key token)
        | .failed => drawn
        | .applied => drawn.setRedis key (some token)
      else drawn
    | _ => s
  | .store g =>
    match s.phase g with
    | .acquired key own => (s.write (home g) key ⟨own,some own⟩).at g (.holding key own)
    | _ => s
  | .unlock g _ _ =>
    match s.phase g with
    | .holding key own =>
      let fields := s.fields (home g) key
      let cleared := s.write (home g) key .cleared
      if fields.token = "" then cleared.at g .outside
      else { cleared.at g (.releasing key own fields.token) with
              closed := fields.stopChan.toList ++ s.closed }
    | _ => s
  | .release g command =>
    match s.phase g with
    | .releasing key _ taken =>
      if command ≠ .failed ∧ s.redis key = some taken then (s.setRedis key none).at g .outside
      else s.at g .outside
    | _ => s
  | .refresh _ _ _ => s
  | .expire key => s.setRedis key none

def machine : Machine (State P G) (Event G) := ⟨Enabled keyPrefix,next home keyPrefix⟩

instance (s : State P G) (event : Event G) : Decidable ((machine home keyPrefix).Enabled s event) :=
  inferInstanceAs (Decidable (Enabled keyPrefix s event))

/-- Nobody is in a lock call; Redis may still hold tokens of processes that died. -/
structure Initial (s : State P G) : Prop where
  phase : ∀ g, s.phase g = .outside
  fields : ∀ p key, s.fields p key = .cleared
  used : "" ∉ s.used
  closed : s.closed = []

end Centauri.RedisLock
