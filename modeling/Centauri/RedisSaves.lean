import Centauri.Machine
import Centauri.RedisStore

/-! Any number of `SaveCertificate` calls on one hash, interleaved between their
read, the inspection of each entry read, and their transaction. The clock is
common and never goes back; `W` names the calls in progress. -/
namespace Centauri.RedisSaves

open RedisStore

structure Pending where
  cert : Details
  raw : String
  todo : List Entry
  args : List Entry
  deriving DecidableEq

structure State (W : Type) where
  hash : RedisHash
  clock : Int
  pending : W → Option Pending

/-- `abandon` is a call whose Redis command failed without effect. A transaction that
reports an error although it was applied is still an `exec`. -/
inductive Event (W : Type) where
  | tick (now : Int)
  | read (w : W) (d : Details) (stored : List Entry)
  | inspect (w : W)
  | exec (w : W) (d : Details)
  | abandon (w : W)

variable {W : Type} [DecidableEq W] (json : Json)

def Enabled (s : State W) : Event W → Prop
  | .tick now => s.clock ≤ now
  | .read w d stored => s.pending w = none ∧ stored.Perm s.hash.entries ∧
      ∃ raw, json.marshal d = .ok raw
  | .inspect w => ∃ p ∈ s.pending w, p.todo ≠ []
  | .exec w d => ∃ p ∈ s.pending w, p.todo = [] ∧ p.cert = d
  | .abandon w => s.pending w ≠ none

instance decidableEncoded : (encoded : Except String String) → Decidable (∃ raw, encoded = .ok raw)
  | .ok raw => .isTrue ⟨raw,rfl⟩
  | .error _ => .isFalse (by simp)

omit [DecidableEq W] in
instance (s : State W) : ∀ event, Decidable (Enabled json s event)
  | .tick now => inferInstanceAs (Decidable (s.clock ≤ now))
  | .read w d stored => inferInstanceAs (Decidable (s.pending w = none ∧
      stored.Perm s.hash.entries ∧ ∃ raw, json.marshal d = .ok raw))
  | .inspect w => inferInstanceAs (Decidable (∃ p ∈ s.pending w, p.todo ≠ []))
  | .exec w d => inferInstanceAs (Decidable (∃ p ∈ s.pending w, p.todo = [] ∧ p.cert = d))
  | .abandon w => inferInstanceAs (Decidable (s.pending w ≠ none))

/-- Whether an entry is worth pruning is decided when it is inspected, not when it was read. -/
def Pending.inspect (now : Int) (p : Pending) : Pending :=
  match p.todo with
  | [] => p
  | entry :: rest =>
    { p with todo := rest
             args := if prunable json now entry.2 then p.args ++ [entry] else p.args }

def State.put (s : State W) (w : W) (call : Option Pending) : State W :=
  { s with pending := Function.update s.pending w call }

def next (s : State W) : Event W → State W
  | .tick now => { s with clock := now }
  | .read w d stored =>
    match json.marshal d with
    | .error _ => s
    | .ok raw => s.put w (some ⟨d,raw,stored,[]⟩)
  | .inspect w => s.put w ((s.pending w).map (Pending.inspect json s.clock))
  | .exec w _ =>
    match s.pending w with
    | none => s
    | some p => { s.put w none with hash := transaction p.args p.cert p.raw s.hash }
  | .abandon w => s.put w none

def machine : Machine (State W) (Event W) := ⟨Enabled json,next json⟩

instance (s : State W) (event : Event W) : Decidable ((machine json).Enabled s event) :=
  inferInstanceAs (Decidable (Enabled json s event))

theorem machine_next : (machine json).next (S := State W) = next json := rfl

/-- Every argument collected so far is still prunable, however old its read. -/
structure Invariant (s : State W) : Prop where
  encoded : ∀ w p, s.pending w = some p → json.marshal p.cert = .ok p.raw
  stale : ∀ w p, s.pending w = some p → ∀ entry ∈ p.args, prunable json s.clock entry.2 = true

variable {json}

theorem prunable_mono (le : now ≤ later) (old : prunable json now raw = true) :
    prunable json later raw = true := by
  unfold prunable at *
  cases decoded : json.unmarshal raw with
  | error message => rfl
  | ok d =>
    simp only [decoded,Bool.not_eq_true',Bool.eq_false_iff,ne_eq,Details.validFor_iff] at *
    omega

theorem not_prunable (decoded : json.unmarshal raw = .ok d) (alive : now < d.notAfter) :
    prunable json now raw = false := by
  simp [prunable,decoded,alive]

omit [DecidableEq W] in
theorem idle_invariant {s : State W} (idle : ∀ w, s.pending w = none) : Invariant json s := by
  constructor <;> intro w p busy <;> simp [idle w] at busy

/-- Calls other than the updated one keep what the invariant says of them. -/
theorem Invariant.update {s : State W} (valid : Invariant json s) (w : W) (hash : RedisHash)
    (call : Option Pending)
    (good : ∀ p, call = some p → json.marshal p.cert = .ok p.raw ∧
      ∀ entry ∈ p.args, prunable json s.clock entry.2 = true) :
    Invariant json ⟨hash,s.clock,Function.update s.pending w call⟩ := by
  constructor
  all_goals
    intro u p busy
    dsimp only at busy
    by_cases same : u = w
    · subst same
      rw [Function.update_self] at busy
      first | exact (good p busy).1 | exact (good p busy).2
    · rw [Function.update_of_ne same] at busy
      first | exact valid.encoded u p busy | exact valid.stale u p busy

theorem inspect_args (p : Pending) (old : ∀ entry ∈ p.args, prunable json now entry.2 = true) :
    ∀ entry ∈ (p.inspect json now).args, prunable json now entry.2 = true := by
  unfold Pending.inspect
  split
  · exact old
  next head rest _ =>
    dsimp only
    split
    next expired =>
      intro entry member
      rcases List.mem_append.mp member with member | member
      · exact old entry member
      · rw [List.mem_singleton.mp member]
        exact expired
    next => exact old

@[simp] theorem inspect_cert (p : Pending) : (p.inspect json now).cert = p.cert := by
  unfold Pending.inspect
  split <;> rfl

@[simp] theorem inspect_raw (p : Pending) : (p.inspect json now).raw = p.raw := by
  unfold Pending.inspect
  split <;> rfl

theorem step_invariant {s : State W} {event : Event W} (valid : Invariant json s)
    (enabled : Enabled json s event) : Invariant json (next json s event) := by
  cases event with
  | tick now =>
    refine ⟨valid.encoded,fun w p busy entry member => ?_⟩
    exact prunable_mono enabled (valid.stale w p busy entry member)
  | read w d stored =>
    obtain ⟨_,_,raw,encoded⟩ := enabled
    simp only [next,encoded]
    apply valid.update
    rintro p ⟨rfl⟩
    exact ⟨encoded,by simp⟩
  | inspect w =>
    apply valid.update
    intro p moved
    obtain ⟨q,busy,rfl⟩ := Option.map_eq_some_iff.mp moved
    rw [inspect_cert,inspect_raw]
    exact ⟨valid.encoded w q busy,inspect_args q (valid.stale w q busy)⟩
  | exec w d =>
    obtain ⟨p,(busy : s.pending w = some p),_,_⟩ := enabled
    simp only [next,busy]
    apply valid.update
    simp
  | abandon w =>
    apply valid.update
    simp

/-- A call in progress saves the certificate it read with, until its transaction. -/
theorem pending_next {s : State W} {event : Event W} (enabled : Enabled json s event)
    (busy : (next json s event).pending w = some p) :
    (∃ q, s.pending w = some q ∧ q.cert = p.cert ∧ ∀ d, event ≠ .exec w d) ∨
      ∃ stored, event = .read w p.cert stored := by
  have other {u : W} {call : Option Pending} (changed : (s.put u call).pending w = some p)
      (ne : w ≠ u) : s.pending w = some p := by
    simpa [State.put,ne] using changed
  cases event with
  | tick now => exact .inl ⟨p,busy,rfl,by simp⟩
  | read u d stored =>
    obtain ⟨_,_,raw,encoded⟩ := enabled
    simp only [next,encoded] at busy
    by_cases same : w = u
    · subst same
      simp only [State.put,Function.update_self,Option.some.injEq] at busy
      exact .inr ⟨stored,by rw [← busy]⟩
    · exact .inl ⟨p,other busy same,rfl,by simp⟩
  | inspect u =>
    by_cases same : w = u
    · subst same
      simp only [next,State.put,Function.update_self] at busy
      obtain ⟨q,before,rfl⟩ := Option.map_eq_some_iff.mp busy
      exact .inl ⟨q,before,(inspect_cert q).symm,by simp⟩
    · exact .inl ⟨p,other busy same,rfl,by simp⟩
  | exec u d =>
    obtain ⟨q,(before : s.pending u = some q),_,_⟩ := enabled
    simp only [next,before] at busy
    by_cases same : w = u
    · subst same
      simp [State.put] at busy
    · exact .inl ⟨p,other busy same,rfl,fun e eq => same (Event.exec.inj eq).1.symm⟩
  | abandon u =>
    by_cases same : w = u
    · subst same
      simp [next,State.put] at busy
    · exact .inl ⟨p,other busy same,rfl,by simp⟩

/-- Only a transaction touches the hash, with the arguments its call has collected. -/
theorem hash_next {s : State W} {event : Event W} (enabled : Enabled json s event) :
    (next json s event).hash = s.hash ∧ (∀ w d, event ≠ .exec w d) ∨
      ∃ w p, event = .exec w p.cert ∧ s.pending w = some p ∧
        (next json s event).hash = transaction p.args p.cert p.raw s.hash := by
  cases event with
  | tick now => exact .inl ⟨rfl,by simp⟩
  | read w d stored =>
    obtain ⟨_,_,raw,encoded⟩ := enabled
    exact .inl ⟨by simp [next,encoded,State.put],by simp⟩
  | inspect w => exact .inl ⟨rfl,by simp⟩
  | exec w d =>
    obtain ⟨p,(busy : s.pending w = some p),_,rfl⟩ := enabled
    exact .inr ⟨w,p,rfl,busy,by simp [next,busy]⟩
  | abandon w => exact .inl ⟨rfl,by simp⟩

variable (json) in
/-- Only the passing of time moves the clock. -/
theorem clock_next (s : State W) (event : Event W) :
    (next json s event).clock = s.clock ∨ event = .tick (next json s event).clock := by
  cases event with
  | tick now => exact .inr rfl
  | read w d stored =>
    left
    simp only [next]
    split <;> rfl
  | inspect w => exact .inl rfl
  | exec w d =>
    left
    simp only [next]
    split <;> rfl
  | abandon w => exact .inl rfl

/-- The clock of a run never goes back. -/
theorem run_clock {s final : State W} (run : (machine json).Run s trace final) :
    s.clock ≤ final.clock := by
  induction run with
  | nil => exact Int.le_refl _
  | @cons s event _ _ enabled _ ih =>
    refine Int.le_trans ?_ ih
    rcases clock_next json s event with same | ticked
    · exact Int.le_of_eq same.symm
    · rw [ticked] at enabled
      exact enabled

/-- A valid entry survives every step but a transaction for its own field: an argument
that names its current value is prunable, which a valid certificate is not. -/
theorem step_lookup {s : State W} {event : Event W} (valid : Invariant json s)
    (enabled : Enabled json s event) (found : s.hash.lookup f = some raw)
    (decoded : json.unmarshal raw = .ok d) (alive : s.clock < d.notAfter)
    (apart : ∀ w e, event = .exec w e → field e ≠ f) :
    (next json s event).hash.lookup f = some raw := by
  cases event with
  | tick now => exact found
  | read w e stored =>
    obtain ⟨_,_,text,encoded⟩ := enabled
    simpa only [next,encoded,State.put] using found
  | inspect w => exact found
  | exec w e =>
    obtain ⟨p,(busy : s.pending w = some p),_,rfl⟩ := enabled
    simp only [next,busy]
    rw [transaction_lookup_other (Ne.symm (apart w p.cert rfl)),found]
    refine Option.filter_eq_some_iff.mpr ⟨rfl,?_⟩
    rw [decide_eq_true_eq]
    intro member
    have stale := valid.stale w p busy _ member
    rw [not_prunable decoded alive] at stale
    cases stale
  | abandon w => exact found

theorem run_lookup {s final : State W} (run : (machine json).Run s trace final)
    (valid : Invariant json s) (found : s.hash.lookup f = some raw)
    (decoded : json.unmarshal raw = .ok d) (alive : final.clock < d.notAfter)
    (apart : ∀ w e, Event.exec w e ∈ trace → field e ≠ f) :
    final.hash.lookup f = some raw := by
  induction run with
  | nil => exact found
  | @cons s event rest final enabled later ih =>
    have early : s.clock < d.notAfter :=
      lt_of_le_of_lt (run_clock (.cons enabled later)) alive
    apply ih (step_invariant valid enabled)
    · exact step_lookup valid enabled found decoded early
        fun w e here => apart w e (here ▸ List.mem_cons_self)
    · exact alive
    · exact fun w e member => apart w e (List.mem_cons_of_mem _ member)

/-- Once written, a certificate stays in its field until it expires or another save
with the same key overwrites it, whatever the other calls had read before. -/
theorem written_stays (s final : State W) (w : W) (d : Details) (earlier later : List (Event W))
    (idle : ∀ u, s.pending u = none)
    (run : (machine json).Run s (earlier ++ .exec w d :: later) final)
    (apart : ∀ u e, Event.exec u e ∈ later →
      certificateKey e.provider e.subject e.altNames ≠
        certificateKey d.provider d.subject d.altNames)
    (alive : d.notAfter > final.clock) :
    ∃ raw, json.marshal d = .ok raw ∧
      final.hash.lookup (certificateKey d.provider d.subject d.altNames) = some raw := by
  obtain ⟨before,prefixRun,enabled,rest⟩ := run.split
  have valid : Invariant json before :=
    prefixRun.invariant (Invariant json) (fun _ _ => step_invariant) (idle_invariant idle)
  obtain ⟨p,(busy : before.pending w = some p),_,rfl⟩ := id enabled
  have encoded := valid.encoded w p busy
  have after : Invariant json (next json before (.exec w p.cert)) := step_invariant valid enabled
  have written : (next json before (.exec w p.cert)).hash.lookup (field p.cert) = some p.raw := by
    simp only [next,busy]
    exact transaction_lookup_self
  exact ⟨p.raw,encoded,run_lookup rest after written (json.round_trip encoded) alive apart⟩

def expired : State Bool :=
  ⟨(∅ : RedisHash).insert "lego;example.com;a;b" Sample.issuedText,150,fun _ => none⟩

/-- Two calls read the expired entry and `false` renews it. -/
def renewal : List (Event Bool) :=
  [.read true Sample.legacy expired.hash.entries,.inspect true,
    .read false Sample.renewed expired.hash.entries,.inspect false]

/-- The call `true` prunes by its old reply only after `false` has renewed the entry. -/
theorem renewal_survives_stale_prune : ∃ final,
    (machine Sample.json).Run expired
      (renewal ++ .exec false Sample.renewed :: [.tick 160,.exec true Sample.legacy]) final ∧
    final.hash.lookup "lego;example.com;a;b" = some Sample.renewedText := by
  have run := Machine.run_of_allows (m := machine Sample.json) (s := expired)
    (show Machine.Allows _ _
      (renewal ++ .exec false Sample.renewed :: [.tick 160,.exec true Sample.legacy]) by
        decide +kernel)
  obtain ⟨raw,encoded,kept⟩ := written_stays expired _ false Sample.renewed _ _ (fun _ => rfl) run
    (by simp; decide) (by decide +kernel)
  have text : Sample.json.marshal Sample.renewed = .ok Sample.renewedText := by decide +kernel
  obtain rfl : Sample.renewedText = raw := Except.ok.inj (text.symm.trans encoded)
  exact ⟨_,run,kept⟩

@[simp] theorem put_pending (s : State W) (w : W) (call : Option Pending) :
    (s.put w call).pending w = call := Function.update_self ..

@[simp] theorem put_put (s : State W) (w : W) (call call' : Option Pending) :
    (s.put w call).put w call' = s.put w call' := by
  simp [State.put]

/-- Inspecting without interruption collects what the sequential store would prune. -/
theorem inspect_all (s : State W) (w : W) (d : Details) (raw : String) (todo args : List Entry) :
    (machine json).Run (s.put w (some ⟨d,raw,todo,args⟩)) (List.replicate todo.length (.inspect w))
      (s.put w (some ⟨d,raw,[],args ++ pruneArgs json s.clock todo⟩)) := by
  induction todo generalizing args with
  | nil =>
    simp only [pruneArgs,List.filter_nil,List.append_nil]
    exact .nil
  | cons entry rest ih =>
    refine .cons ⟨_,put_pending ..,by simp⟩ ?_
    simp only [machine_next,next,put_pending,put_put,Option.map_some,Pending.inspect]
    by_cases old : prunable json s.clock entry.2 = true
    · simpa [old,pruneArgs,State.put] using ih (args ++ [entry])
    · simpa [old,pruneArgs,State.put] using ih args

/-- A call that nobody interrupts arrives at its transaction with what is to be pruned. -/
theorem prepare_run (s : State W) (w : W) (idle : s.pending w = none)
    (reply : stored.Perm s.hash.entries) (encoded : json.marshal d = .ok raw) :
    (machine json).Run s (.read w d stored :: List.replicate stored.length (.inspect w))
      (s.put w (some ⟨d,raw,[],pruneArgs json s.clock stored⟩)) := by
  refine .cons ⟨idle,reply,raw,encoded⟩ ?_
  simp only [machine_next,next,encoded]
  exact inspect_all s w d raw stored []

/-- The transaction of such a call. -/
theorem next_exec (s : State W) (w : W) (idle : s.pending w = none) (args : List Entry) :
    next json (s.put w (some ⟨d,raw,[],args⟩)) (.exec w d) =
      { s with hash := transaction args d raw s.hash } := by
  have restored : s.put w none = s := by
    simp [State.put,← idle]
  simp only [next,put_pending,put_put,restored]
  rfl

/-- The store's own `SaveCertificate` is the run of one call that nobody interrupts. -/
theorem saveCertificate_run (s : State W) (w : W) (d : Details) (stored : List Entry)
    (idle : s.pending w = none) (reply : stored.Perm s.hash.entries) (after : RedisHash)
    (done : saveCertificate json s.clock (.ok stored) .ok d s.hash = (after,none)) :
    (machine json).Run s
      (.read w d stored :: List.replicate stored.length (.inspect w) ++ [.exec w d])
      { s with hash := after } := by
  cases encoded : json.marshal d with
  | error message => simp [saveCertificate,encoded] at done
  | ok raw =>
    simp only [saveCertificate,encoded,Prod.mk.injEq,and_true] at done
    have ready : (machine json).Enabled
        (s.put w (some ⟨d,raw,[],pruneArgs json s.clock stored⟩)) (.exec w d) :=
      ⟨_,put_pending ..,rfl,rfl⟩
    have finished := (prepare_run s w idle reply encoded).snoc ready
    rw [machine_next,next_exec s w idle,done] at finished
    exact finished

end Centauri.RedisSaves
