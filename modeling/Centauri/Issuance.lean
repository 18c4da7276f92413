import Centauri.CertificateManager
import Centauri.RedisLockExclusion
import Centauri.RedisSaves

/-! Any number of instances asking for one certificate through one Redis server. Each
goroutine in `G` runs `GetCertificate` for the same provider and names, step by step;
`E` are the saves of other certificates that go on at the same time. The lock and the
saves move as in their own machines. -/
namespace Centauri.Issuance

open RedisStore

/-- What the calls ask for. `supplier` gives the minimum validities. -/
structure Target where
  keyPrefix : String
  provider : String
  supplier : Supplier
  subject : String
  altNames : List String

/-- Where a call stands; `resaving`, `restapling` and `saving` are inside `SaveCertificate`,
and `leaving` is about to run the deferred unlock. -/
inductive Phase (K : Type) where
  | idle
  | entering
  | found (cert : Details)
  | refreshing (cert : Details)
  | resaving (cert : Details)
  | checking (cert : Details)
  | stapleChecking (cert : Details)
  | stapling (cert : Details)
  | restapling (cert : Details)
  | obtaining
  | annotating (cert : Details)
  | saving (cert : Details)
  | leaving (result : Outcome (TlsCertificate K))
  | returned (result : Outcome (TlsCertificate K))
  deriving DecidableEq

/-- The steps of a call that touch nothing shared: clock readings and supplier calls. -/
inductive Action where
  | checkAri
  | updateRenewalInfo (answer : Except String RenewalInfo)
  | checkRenew
  | checkStaple
  | updateStaple (answer : Except String Staple)
  | getCertificate (answer : Except String Details)

variable {K : Type}

namespace Phase

def isOutside : Phase K → Bool
  | .idle | .returned _ => true
  | _ => false

def isEntering : Phase K → Bool
  | .entering => true
  | _ => false

def isLeaving : Phase K → Bool
  | .leaving _ => true
  | _ => false

def saves : Phase K → Option Details
  | .resaving d | .restapling d | .saving d => some d
  | _ => none

def step (crypto : Crypto K) (t : Target) (now : Int) : Phase K → Action → Option (Phase K)
  | .found d,.checkAri => some (if d.ariNextUpdate < now then .refreshing d else .checking d)
  | .refreshing d,.updateRenewalInfo (.error _) => some (.checking d)
  | .refreshing d,.updateRenewalInfo (.ok info) => some (.resaving (d.withRenewalInfo info))
  | .checking d,.checkRenew =>
    some (if d.shouldRenew now t.supplier.minCertificateValidity then .obtaining
      else .stapleChecking d)
  | .stapleChecking d,.checkStaple =>
    some (match d.requiresStaple crypto with
      | none => .leaving .crashed
      | some required =>
        if required && !d.hasStapleFor now t.supplier.minStapleValidity then .stapling d
        else .leaving (.ofExcept (d.keyPair crypto)))
  | .stapling d,.updateStaple (.error message) =>
    some (.leaving (.err ("failed to obtain OCSP staple for " ++ d.subject ++ ": " ++ message)))
  | .stapling d,.updateStaple (.ok s) => some (.restapling (d.withStaple s))
  | .obtaining,.getCertificate (.error message) =>
    some (.leaving (.err ("failed to obtain certificate for " ++ t.subject ++ ": " ++ message)))
  | .obtaining,.getCertificate (.ok d) => some (.annotating (d.withProvider t.provider))
  | .annotating d,.updateRenewalInfo (.error _) => some (.saving d)
  | .annotating d,.updateRenewalInfo (.ok info) => some (.saving (d.withRenewalInfo info))
  | _,_ => none

def saved (crypto : Crypto K) : Phase K → Phase K
  | .resaving d => .checking d
  | .restapling d | .saving d => .leaving (.ofExcept (d.keyPair crypto))
  | phase => phase

def unsaved (t : Target) (message : String) : Phase K → Phase K
  | .resaving d => .checking d
  | .restapling d =>
    .leaving (.err ("failed to save certificate for " ++ d.subject ++ ": " ++ message))
  | .saving _ =>
    .leaving (.err ("failed to save certificate for " ++ t.subject ++ ": " ++ message))
  | phase => phase

end Phase

structure State (K P G E : Type) where
  lock : RedisLock.State P G
  saves : RedisSaves.State (G ⊕ E)
  /-- The order in which each call lists the alt names. -/
  names : G → List String
  call : G → Phase K
  /-- Certificates the supplier has issued, as saved. -/
  issued : List Details

/-- `lock` are the steps of lock calls in progress and of Redis itself; `save` those of
saves in progress, and the clock. A call's save fails before its transaction took effect,
by `saveError`, or after it, by `applied`. -/
inductive Event (G E : Type) where
  | begin (g : G) (altNames : List String)
  | lock (event : RedisLock.Event G)
  | lookup (g : G) (reply : Except String (List Entry))
  | act (g : G) (action : Action)
  | save (event : RedisSaves.Event (G ⊕ E))
  | saveError (g : G) (message : String)
  | applied (g : G) (d : Details) (message : String)
  | unlock (g : G)

variable {P G E : Type} [DecidableEq P] [DecidableEq G] [DecidableEq E]
variable (json : Json) (crypto : Crypto K) (home : G → P) (t : Target)

def isInternal : RedisLock.Event G → Bool
  | .lock _ _ _ | .unlock _ _ _ => false
  | _ => true

def Owned (call : G → Phase K) : RedisSaves.Event (G ⊕ E) → Prop
  | .read (.inl g) d _ | .exec (.inl g) d => (call g).saves = some d
  | .abandon (.inl _) => False
  | _ => True

instance (call : G → Phase K) : ∀ event : RedisSaves.Event (G ⊕ E), Decidable (Owned call event)
  | .read (.inl g) d _ => inferInstanceAs (Decidable ((call g).saves = some d))
  | .exec (.inl g) d => inferInstanceAs (Decidable ((call g).saves = some d))
  | .abandon (.inl _) => inferInstanceAs (Decidable False)
  | .read (.inr _) _ _ | .exec (.inr _) _ | .abandon (.inr _) | .tick _ | .inspect _ =>
    inferInstanceAs (Decidable True)

def Lists (hash : RedisHash) : Except String (List Entry) → Prop
  | .error _ => True
  | .ok stored => stored.Perm hash.entries

instance (hash : RedisHash) : ∀ reply, Decidable (Lists hash reply)
  | .error _ => inferInstanceAs (Decidable True)
  | .ok stored => inferInstanceAs (Decidable (stored.Perm hash.entries))

def Enabled (s : State K P G E) : Event G E → Prop
  | .begin g altNames => (s.call g).isOutside = true ∧ altNames.Perm t.altNames ∧
      RedisLock.Enabled t.keyPrefix s.lock (.lock g t.subject altNames)
  | .lock event => isInternal event = true ∧ RedisLock.Enabled t.keyPrefix s.lock event
  | .lookup g reply => (s.call g).isEntering = true ∧ Lists s.saves.hash reply ∧
      (s.lock.phase g).isHolding (lockKey t.keyPrefix t.subject (s.names g)) = true
  | .act g action => ((s.call g).step crypto t s.saves.clock action).isSome = true
  | .save event => Owned s.call event ∧ RedisSaves.Enabled json s.saves event
  | .saveError g _ => (s.call g).saves.isSome = true
  | .applied g d _ => (s.call g).saves = some d ∧ RedisSaves.Enabled json s.saves (.exec (.inl g) d)
  | .unlock g => (s.call g).isLeaving = true ∧
      RedisLock.Enabled t.keyPrefix s.lock (.unlock g t.subject (s.names g))

instance (s : State K P G E) : ∀ event, Decidable (Enabled json crypto t s event)
  | .begin g altNames => inferInstanceAs (Decidable ((s.call g).isOutside = true ∧
      altNames.Perm t.altNames ∧
      RedisLock.Enabled t.keyPrefix s.lock (.lock g t.subject altNames)))
  | .lock event => inferInstanceAs
      (Decidable (isInternal event = true ∧ RedisLock.Enabled t.keyPrefix s.lock event))
  | .lookup g reply => inferInstanceAs (Decidable ((s.call g).isEntering = true ∧
      Lists s.saves.hash reply ∧
      (s.lock.phase g).isHolding (lockKey t.keyPrefix t.subject (s.names g)) = true))
  | .act g action =>
    inferInstanceAs (Decidable (((s.call g).step crypto t s.saves.clock action).isSome = true))
  | .save event =>
    inferInstanceAs (Decidable (Owned s.call event ∧ RedisSaves.Enabled json s.saves event))
  | .saveError g _ => inferInstanceAs (Decidable ((s.call g).saves.isSome = true))
  | .applied g d _ => inferInstanceAs (Decidable ((s.call g).saves = some d ∧
      RedisSaves.Enabled json s.saves (.exec (.inl g) d)))
  | .unlock g => inferInstanceAs (Decidable ((s.call g).isLeaving = true ∧
      RedisLock.Enabled t.keyPrefix s.lock (.unlock g t.subject (s.names g))))

def State.at (s : State K P G E) (g : G) (phase : Phase K) : State K P G E :=
  { s with call := Function.update s.call g phase }

/-- The phase after a step of a save; only a call's own transaction moves it on. -/
def afterSave (call : G → Phase K) : RedisSaves.Event (G ⊕ E) → G → Phase K
  | .exec (.inl g) _ => Function.update call g ((call g).saved crypto)
  | _ => call

def Action.issues : Action → List Details
  | .getCertificate (.ok d) => [d.withProvider t.provider]
  | _ => []

def next (s : State K P G E) : Event G E → State K P G E
  | .begin g altNames =>
    { s.at g .entering with
      lock := RedisLock.next home t.keyPrefix s.lock (.lock g t.subject altNames)
      names := Function.update s.names g altNames }
  | .lock event => { s with lock := RedisLock.next home t.keyPrefix s.lock event }
  | .lookup g reply =>
    match RedisStore.getCertificate json reply t.provider t.subject (s.names g) with
    | none => s.at g .obtaining
    | some d => s.at g (.found d)
  | .act g action =>
    match (s.call g).step crypto t s.saves.clock action with
    | none => s
    | some phase => { s.at g phase with issued := s.issued ++ action.issues t }
  | .save event =>
    { s with saves := RedisSaves.next json s.saves event,call := afterSave crypto s.call event }
  | .saveError g message =>
    { s.at g ((s.call g).unsaved t message) with saves := s.saves.put (.inl g) none }
  | .applied g d message =>
    { s.at g ((s.call g).unsaved t message) with
      saves := RedisSaves.next json s.saves (.exec (.inl g) d) }
  | .unlock g =>
    match s.call g with
    | .leaving result =>
      { s.at g (.returned result) with
        lock := RedisLock.next home t.keyPrefix s.lock (.unlock g t.subject (s.names g)) }
    | _ => s

def machine : Machine (State K P G E) (Event G E) := ⟨Enabled json crypto t,next json crypto home t⟩

instance (s : State K P G E) (event : Event G E) :
    Decidable ((machine json crypto home t).Enabled s event) :=
  inferInstanceAs (Decidable (Enabled json crypto t s event))

structure Initial (s : State K P G E) : Prop where
  lock : RedisLock.Initial s.lock
  idle : ∀ w, s.saves.pending w = none
  names : ∀ g, (s.names g).Perm t.altNames
  call : ∀ g, s.call g = .idle
  issued : s.issued = []
  absent : ∀ entry ∈ s.saves.hash.entries, ∀ d, json.unmarshal entry.2 = .ok d →
    d.isFor t.subject t.altNames = false

end Centauri.Issuance
