import Centauri.Machine
import Centauri.NetworkSource

/-! The loop of `run` in steps, next to `Stop`: when it starts a read, when it reconnects and
when it gives up. What the connections deliver is in the module on the network source. -/
namespace Centauri

namespace NetworkSource

inductive Outcome where
  | applied (payload : List UInt8)
  | failed (err : NetworkError)
  | crashed
  | dialled
  | dialFailed (err : String)
  deriving DecidableEq, Repr

/-- The outcomes after which `run` gives up: a failed reconnect, or a failed read with only a
reconnect between it and another. -/
def Fatal (log : List Outcome) : Prop :=
  (∃ err, [.dialFailed err] <:+ log) ∨ ∃ err err', [.failed err,.dialled,.failed err'] <:+ log

def Shaky (log : List Outcome) : Prop := ∃ err, [.failed err,.dialled] <:+ log

def Calm (log : List Outcome) : Prop := ∀ earlier, earlier <+: log → ¬Fatal earlier

section Logs

theorem suffix_snoc_iff (xs : List α) {log : List α} : xs ++ [x] <:+ log ++ [y] ↔ x = y ∧ xs <:+ log := by
  constructor
  · rintro ⟨front,eq⟩
    rw [← List.append_assoc] at eq
    obtain ⟨whole,last⟩ := List.append_inj' eq rfl
    exact ⟨List.singleton_inj.mp last,front,whole⟩
  · rintro ⟨rfl,front,rfl⟩
    exact ⟨front,by rw [List.append_assoc]⟩

theorem fatal_snoc : Fatal (log ++ [last]) ↔
    (∃ err, last = .dialFailed err) ∨ (∃ err, last = .failed err) ∧ Shaky log := by
  have dial (err : String) : [.dialFailed err] <:+ log ++ [last] ↔ .dialFailed err = last :=
    (suffix_snoc_iff []).trans (and_iff_left List.nil_suffix)
  have read (err err' : NetworkError) : [.failed err,.dialled,.failed err'] <:+ log ++ [last] ↔
      .failed err' = last ∧ [.failed err,.dialled] <:+ log :=
    suffix_snoc_iff [Outcome.failed err,.dialled]
  simp only [Fatal,Shaky,dial,read]
  constructor
  · rintro (⟨err,rfl⟩ | ⟨err,err',rfl,shaky⟩)
    · exact .inl ⟨err,rfl⟩
    · exact .inr ⟨⟨err',rfl⟩,err,shaky⟩
  · rintro (⟨err,rfl⟩ | ⟨⟨err',rfl⟩,err,shaky⟩)
    · exact .inl ⟨err,rfl⟩
    · exact .inr ⟨err,err',rfl,shaky⟩

theorem shaky_snoc : Shaky (log ++ [last]) ↔ last = .dialled ∧ ∃ past err, log = past ++ [.failed err] := by
  have split (err : NetworkError) : [.failed err,.dialled] <:+ log ++ [last] ↔
      .dialled = last ∧ [.failed err] <:+ log := suffix_snoc_iff [Outcome.failed err]
  simp only [Shaky,split]
  constructor
  · rintro ⟨err,rfl,past,rfl⟩
    exact ⟨rfl,past,err,rfl⟩
  · rintro ⟨rfl,past,err,rfl⟩
    exact ⟨err,rfl,past,rfl⟩

theorem calm_snoc : Calm (log ++ [last]) ↔ Calm log ∧ ¬Fatal (log ++ [last]) := by
  simp only [Calm,List.prefix_concat_iff]
  constructor
  · exact fun calm => ⟨fun earlier front => calm earlier (.inr front),calm _ (.inl rfl)⟩
  · rintro ⟨calm,last⟩ earlier (rfl | front)
    · exact last
    · exact calm earlier front

theorem calm_nil : Calm [] := by
  intro earlier front
  obtain rfl := List.prefix_nil.mp front
  simp [Fatal]

end Logs
/-- The states of `run`; `reading` and `reconnecting` are those in which it waits. -/
inductive Phase where
  | top
  | reading
  | reconnecting
  | returned
  | ended (err : String)
  | crashed
  deriving DecidableEq, Repr

/-- `run` with what it shares with `Stop`. `deadline` says whether the current connection has
one, `token` whether `stopChan`, which has room for one, is full. -/
structure Loop (P : Type) where
  phase : Phase
  secondChance : Bool
  initialConfigRead : Bool
  deadline : Bool
  token : Bool
  conn : Conn
  proxy : P

def Loop.start (conn : Conn) (proxy : P) : Loop P := ⟨.top,false,false,false,false,conn,proxy⟩

inductive LoopEvent where
  | stop
  | select
  | read (interrupt : Option (Nat × String))
  | dial (answer : Except String Conn)

/-- A read may be cut short after some bytes: by the deadline, the network or the `Close` of
`Stop`. -/
def Conn.cut (conn : Conn) : Option (Nat × String) → Conn
  | none => conn
  | some (n,err) => ⟨[conn.bytes.take n],some err⟩

/-- Whatever is applied was handed to `Parse`. -/
def Call.outcome (call : Call P) : Outcome :=
  match call.result with
  | .applied => .applied (call.handed.getD [])
  | .failed err => .failed err
  | .crashed => .crashed

namespace Loop

def select (s : Loop P) : Loop P :=
  if s.token then { s with phase := .returned,token := false }
  else if !s.initialConfigRead then { s with phase := .reading,deadline := true }
  else { s with phase := .reading }

def afterRead (quote : List UInt8 → String) (s : Loop P) (call : Call P) : Loop P :=
  let s := { s with conn := call.conn,proxy := call.proxy }
  match call.result with
  | .failed err =>
    if s.secondChance then
      { s with phase := .ended ("failed to read config after reconnection: " ++ err.message quote) }
    else { s with phase := .reconnecting }
  | .applied =>
    let s := if !s.initialConfigRead then { s with initialConfigRead := true,deadline := false } else s
    { s with phase := .top,secondChance := false }
  | .crashed => { s with phase := .crashed }

/-- The loop after `net.Dial`. A new connection has no deadline. -/
def afterDial (s : Loop P) : Except String Conn → Loop P
  | .error err => { s with phase := .ended ("failed to reconnect to config server: " ++ err) }
  | .ok conn => { s with phase := .top,conn := conn,deadline := false,secondChance := true }

end Loop

variable {P K : Type} (lower : Char → Char) (parseURL : String → Option (String × String))
  (updateRoutes : RouteUpdater P K) (quote : List UInt8 → String)

/-- `Stop` waits while a token is queued. -/
def loop : Machine (Loop P) LoopEvent where
  Enabled s
    | .stop => s.token = false
    | .select => s.phase = .top
    | .read _ => s.phase = .reading
    | .dial _ => s.phase = .reconnecting
  next s
    | .stop => { s with token := true }
    | .select => s.select
    | .read interrupt =>
      s.afterRead quote (readAndApplyConfig lower parseURL updateRoutes (s.conn.cut interrupt) s.proxy)
    | .dial answer => s.afterDial answer

/-- The outcomes of the reads and dials in a trace, with the connection and the manager that
they leave. A payload that arrives is handed on, whatever comes of it. -/
inductive Outcomes (dialled : Conn) (first : P) : List LoopEvent → List Outcome → Conn → P → Prop where
  | start : Outcomes dialled first [] [] dialled first
  | stop : Outcomes dialled first trace log conn proxy → Outcomes dialled first (trace ++ [.stop]) log conn proxy
  | select : Outcomes dialled first trace log conn proxy → Outcomes dialled first (trace ++ [.select]) log conn proxy
  | applied (payload : List UInt8) (left : Conn) : Outcomes dialled first trace log conn proxy →
      (conn.cut interrupt).bytes = Framing.frame header payload ++ left.bytes →
      Handed lower parseURL updateRoutes payload proxy after .applied →
      Outcomes dialled first (trace ++ [.read interrupt]) (log ++ [.applied payload]) left after
  | rejected (payload : List UInt8) (left : Conn) : Outcomes dialled first trace log conn proxy →
      (conn.cut interrupt).bytes = Framing.frame header payload ++ left.bytes →
      Handed lower parseURL updateRoutes payload proxy after (.failed err) →
      Outcomes dialled first (trace ++ [.read interrupt]) (log ++ [.failed err]) left after
  | crashed (payload : List UInt8) (left : Conn) : Outcomes dialled first trace log conn proxy →
      (conn.cut interrupt).bytes = Framing.frame header payload ++ left.bytes →
      Handed lower parseURL updateRoutes payload proxy after .crashed →
      Outcomes dialled first (trace ++ [.read interrupt]) (log ++ [.crashed]) left after
  | malformed (bad : List UInt8) (left : Conn) : Outcomes dialled first trace log conn proxy →
      Malformed err bad → (conn.cut interrupt).bytes = bad ++ left.bytes →
      Outcomes dialled first (trace ++ [.read interrupt]) (log ++ [.failed err]) left proxy
  | truncated (what why : String) (left : Conn) : Outcomes dialled first trace log conn proxy →
      Truncated (conn.cut interrupt).bytes → left.bytes = [] →
      Outcomes dialled first (trace ++ [.read interrupt]) (log ++ [.failed (.read what why)]) left proxy
  | redialled (next : Conn) : Outcomes dialled first trace log conn proxy →
      Outcomes dialled first (trace ++ [.dial (.ok next)]) (log ++ [.dialled]) next proxy
  | dialFailed (err : String) : Outcomes dialled first trace log conn proxy →
      Outcomes dialled first (trace ++ [.dial (.error err)]) (log ++ [.dialFailed err]) conn proxy

variable {lower parseURL updateRoutes quote} {read dialled : Conn} {call : Call P} {first : P}

/-- One call adds its outcome. -/
theorem Outcomes.snoc (outcomes : Outcomes lower parseURL updateRoutes dialled first trace log conn proxy)
    (cases : CallCases lower parseURL updateRoutes (conn.cut interrupt) proxy call) :
    Outcomes lower parseURL updateRoutes dialled first (trace ++ [.read interrupt]) (log ++ [call.outcome])
      call.conn call.proxy := by
  cases cases with
  | @framed after result payload left _ split handed =>
    cases result with
    | applied => exact outcomes.applied payload left split handed
    | failed err => exact outcomes.rejected payload left split handed
    | crashed => exact outcomes.crashed payload left split handed
  | malformed err bad left malformed split => exact outcomes.malformed bad left malformed split
  | truncated what why left truncated none => exact outcomes.truncated what why left truncated none

/-- A call that applies a configuration takes bytes off the stream. -/
theorem CallCases.shorter (cases : CallCases lower parseURL updateRoutes read proxy call)
    (applied : call.result = .applied) (enough : read.bytes.length < fuel) :
    call.conn.bytes.length < fuel - 1 := by
  cases cases with
  | framed payload left _ split _ => exact shorter_of_framed split enough
  | malformed => cases applied
  | truncated => cases applied

namespace Loop

def Retry (log : List Outcome) (s : Loop P) : Prop :=
  match s.phase with
  | .top | .reading => Calm log ∧ (s.secondChance = true ↔ Shaky log)
  | .reconnecting => Calm log ∧ ∃ past err, log = past ++ [.failed err]
  | .returned => Calm log
  | .crashed => Calm log ∧ .crashed ∈ log
  | .ended _ => Fatal log ∧ ∃ past last, log = past ++ [last] ∧ Calm past

def Timed (s : Loop P) : Prop :=
  match s.phase with
  | .top => s.initialConfigRead = true → s.deadline = false
  | .reading => s.deadline = !s.initialConfigRead
  | _ => True

/-- What holds between any two steps of the loop, by the trace so far. -/
structure Sound (lower : Char → Char) (parseURL : String → Option (String × String))
    (updateRoutes : RouteUpdater P K) (dialled : Conn) (first : P) (past : List LoopEvent) (log : List Outcome)
    (s : Loop P) : Prop where
  outcomes : Outcomes lower parseURL updateRoutes dialled first past log s.conn s.proxy
  retry : s.Retry log
  timed : s.Timed
  initial : s.initialConfigRead = true ↔ ∃ payload, .applied payload ∈ log

theorem sound_start (dialled : Conn) (first : P) :
    (start dialled first).Sound lower parseURL updateRoutes dialled first [] [] := by
  refine ⟨.start,⟨calm_nil,?_⟩,by simp [Timed,start],by simp [start]⟩
  simp [start,Shaky]

variable {s : Loop P}

theorem Sound.select (sound : s.Sound lower parseURL updateRoutes dialled first past log) (top : s.phase = .top) :
    s.select.Sound lower parseURL updateRoutes dialled first (past ++ [.select]) log := by
  obtain ⟨outcomes,retry,timed,initial⟩ := sound
  rw [Retry,top] at retry
  rw [Timed,top] at timed
  unfold Loop.select
  split
  · exact ⟨outcomes.select,retry.1,trivial,initial⟩
  split
  next unread =>
    have unread : s.initialConfigRead = false := by simpa using unread
    exact ⟨outcomes.select,retry,by simp [Timed,unread],initial⟩
  next read =>
    have configured : s.initialConfigRead = true := by simpa using read
    exact ⟨outcomes.select,retry,by simp [Timed,configured,timed configured],initial⟩

theorem Sound.afterRead (sound : s.Sound lower parseURL updateRoutes dialled first past log)
    (reading : s.phase = .reading)
    (cases : CallCases lower parseURL updateRoutes (s.conn.cut interrupt) s.proxy call) :
    (s.afterRead quote call).Sound lower parseURL updateRoutes dialled first (past ++ [.read interrupt])
      (log ++ [call.outcome]) := by
  obtain ⟨outcomes,retry,timed,initial⟩ := sound
  rw [Retry,reading] at retry
  rw [Timed,reading] at timed
  obtain ⟨calm,chance⟩ := retry
  have outcomes' := outcomes.snoc cases
  unfold Loop.afterRead
  cases result : call.result with
  | failed err =>
    have outcome : call.outcome = .failed err := by rw [Call.outcome,result]
    have initial' : s.initialConfigRead = true ↔ ∃ payload, .applied payload ∈ log ++ [call.outcome] := by
      simp [outcome,initial]
    dsimp only
    split
    next second =>
      refine ⟨outcomes',⟨?_,log,call.outcome,rfl,calm⟩,trivial,initial'⟩
      exact fatal_snoc.mpr (.inr ⟨⟨err,outcome⟩,chance.mp second⟩)
    next first =>
      refine ⟨outcomes',⟨calm_snoc.mpr ⟨calm,?_⟩,log,err,by rw [outcome]⟩,trivial,initial'⟩
      rw [fatal_snoc,outcome]
      simpa [← chance] using first
  | applied =>
    have outcome : call.outcome = .applied (call.handed.getD []) := by rw [Call.outcome,result]
    have calm' : Calm (log ++ [call.outcome]) := by
      rw [calm_snoc,fatal_snoc,outcome]
      simpa using calm
    have steady : false = true ↔ Shaky (log ++ [call.outcome]) := by
      rw [shaky_snoc,outcome]
      simp
    have configured : ∃ payload, .applied payload ∈ log ++ [call.outcome] :=
      ⟨call.handed.getD [],by simp [outcome]⟩
    dsimp only
    split
    · exact ⟨outcomes',⟨calm',steady⟩,fun _ => rfl,by simpa using configured⟩
    next read =>
      have before : s.initialConfigRead = true := by simpa using read
      refine ⟨outcomes',⟨calm',steady⟩,fun _ => ?_,by simpa [before] using configured⟩
      simpa [before] using timed
  | crashed =>
    have outcome : call.outcome = .crashed := by rw [Call.outcome,result]
    refine ⟨outcomes',⟨calm_snoc.mpr ⟨calm,?_⟩,by simp [outcome]⟩,trivial,by simp [outcome,initial]⟩
    rw [fatal_snoc,outcome]
    simp

theorem Sound.afterDial (sound : s.Sound lower parseURL updateRoutes dialled first past log)
    (reconnecting : s.phase = .reconnecting) (answer : Except String Conn) :
    ∃ last, (s.afterDial answer).Sound lower parseURL updateRoutes dialled first (past ++ [.dial answer])
      (log ++ [last]) := by
  obtain ⟨outcomes,retry,_,initial⟩ := sound
  rw [Retry,reconnecting] at retry
  obtain ⟨calm,early,err,after⟩ := retry
  cases answer with
  | error err =>
    refine ⟨.dialFailed err,outcomes.dialFailed err,⟨?_,log,_,rfl,calm⟩,trivial,by simp [Loop.afterDial,initial]⟩
    exact fatal_snoc.mpr (.inl ⟨err,rfl⟩)
  | ok conn =>
    refine ⟨.dialled,outcomes.redialled conn,⟨calm_snoc.mpr ⟨calm,?_⟩,?_⟩,fun _ => rfl,
      by simp [Loop.afterDial,initial]⟩
    · rw [fatal_snoc]
      simp
    · exact ⟨fun _ => shaky_snoc.mpr ⟨rfl,early,err,after⟩,fun _ => rfl⟩

theorem run_sound (run : (loop lower parseURL updateRoutes quote).Run (start dialled first) trace final) :
    ∃ log, final.Sound lower parseURL updateRoutes dialled first trace log := by
  refine run.history (fun past s => ∃ log, s.Sound lower parseURL updateRoutes dialled first past log) ?_
    ⟨[],sound_start dialled first⟩
  rintro past s event ⟨log,sound⟩ enabled
  cases event with
  | stop => exact ⟨log,sound.outcomes.stop,sound.retry,sound.timed,sound.initial⟩
  | select => exact ⟨log,sound.select enabled⟩
  | read interrupt => exact ⟨_,sound.afterRead enabled (call_cases lower parseURL updateRoutes _ _)⟩
  | dial answer =>
    obtain ⟨last,sound⟩ := sound.afterDial enabled answer
    exact ⟨_,sound⟩

/-- After the token was taken only `Stop` can go on. -/
theorem returned_stays (run : (loop lower parseURL updateRoutes quote).Run s trace final)
    (returned : s.phase = .returned) : final.phase = .returned ∧ ∀ event ∈ trace, event = .stop := by
  induction run with
  | nil => exact ⟨returned,by simp⟩
  | @cons s event rest final enabled _ ih =>
    cases event with
    | stop =>
      obtain ⟨stays,only⟩ := ih returned
      exact ⟨stays,by simpa using only⟩
    | select => cases returned.symm.trans enabled
    | read interrupt => cases returned.symm.trans enabled
    | dial answer => cases returned.symm.trans enabled

theorem afterRead_token (quote : List UInt8 → String) (s : Loop P) (call : Call P) :
    (s.afterRead quote call).token = s.token ∧ (s.afterRead quote call).phase ≠ .returned := by
  unfold afterRead
  cases call.result with
  | failed err =>
    dsimp only
    split <;> exact ⟨rfl,by simp⟩
  | applied =>
    dsimp only
    split <;> exact ⟨rfl,by simp⟩
  | crashed => exact ⟨rfl,by simp⟩

theorem afterDial_token (s : Loop P) (answer : Except String Conn) :
    (s.afterDial answer).token = s.token ∧ (s.afterDial answer).phase ≠ .returned := by
  cases answer with
  | error err => exact ⟨rfl,by simp [afterDial]⟩
  | ok conn => exact ⟨rfl,by simp [afterDial]⟩

def Stopping (s : Loop P) : Prop := s.token = true ∨ s.phase = .returned

theorem Stopping.select (stopping : s.Stopping) (top : s.phase = .top) : s.select.phase = .returned := by
  have token : s.token = true := stopping.resolve_right (by simp [top])
  rw [Loop.select,if_pos token]

theorem Stopping.next (stopping : s.Stopping)
    (enabled : (loop lower parseURL updateRoutes quote).Enabled s event) :
    ((loop lower parseURL updateRoutes quote).next s event).Stopping := by
  cases event with
  | stop => exact .inl rfl
  | select => exact .inr (stopping.select enabled)
  | read interrupt =>
    have reading : s.phase = .reading := enabled
    have token : s.token = true := stopping.resolve_right (by simp [reading])
    exact .inl ((afterRead_token _ _ _).1.trans token)
  | dial answer =>
    have reconnecting : s.phase = .reconnecting := enabled
    have token : s.token = true := stopping.resolve_right (by simp [reconnecting])
    exact .inl ((afterDial_token s answer).1.trans token)

/-- Nothing but `Stop` queues a token. -/
theorem Stopping.before (event : LoopEvent) (other : event ≠ .stop)
    (stopping : ((loop lower parseURL updateRoutes quote).next s event).Stopping) : s.Stopping := by
  cases event with
  | stop => exact absurd rfl other
  | select =>
    by_cases token : s.token = true
    · exact .inl token
    have reading : s.select.phase = .reading ∧ s.select.token = s.token := by
      rw [Loop.select,if_neg token]
      split <;> exact ⟨rfl,rfl⟩
    rcases stopping with queued | returned
    · exact .inl (reading.2.symm.trans queued)
    · cases reading.1.symm.trans returned
  | read interrupt =>
    obtain ⟨kept,going⟩ := afterRead_token quote s
      (readAndApplyConfig lower parseURL updateRoutes (s.conn.cut interrupt) s.proxy)
    exact .inl (kept.symm.trans (stopping.resolve_right going))
  | dial answer =>
    obtain ⟨kept,going⟩ := afterDial_token s answer
    exact .inl (kept.symm.trans (stopping.resolve_right going))

/-- An iteration that begins after `Stop` queued its token is the last, and reads nothing. -/
theorem run_stopped (run : (loop lower parseURL updateRoutes quote).Run s
    (early ++ .stop :: (middle ++ .select :: late)) final) :
    final.phase = .returned ∧ ∀ interrupt, .read interrupt ∉ late := by
  obtain ⟨before,_,_,rest⟩ := run.split
  obtain ⟨u,between,top,later⟩ := rest.split
  have stopping : u.Stopping :=
    between.invariant Stopping (fun _ _ stopping enabled => stopping.next enabled) (.inl rfl)
  obtain ⟨returned,only⟩ := returned_stays later (stopping.select top)
  exact ⟨returned,fun interrupt member => by simpa using only _ member⟩

theorem run_stopping (run : (loop lower parseURL updateRoutes quote).Run (start dialled first) trace final)
    (stopping : final.Stopping) : .stop ∈ trace := by
  have start : (start dialled first).Stopping → LoopEvent.stop ∈ [] := by simp [Stopping,Loop.start]
  refine run.history (fun past s => s.Stopping → .stop ∈ past) ?_ start stopping
  intro past u event earlier _ stopping
  by_cases stop : event = .stop
  · simp [stop]
  · exact List.mem_append_left _ (earlier (.before event stop stopping))

/-- The protocol of `run`: what the outcomes of its reads and dials so far say of the state it is
in. -/
structure Protocol (lower : Char → Char) (parseURL : String → Option (String × String))
    (updateRoutes : RouteUpdater P K) (quote : List UInt8 → String) (dialled : Conn) (first : P)
    (trace : List LoopEvent) (log : List Outcome) (final : Loop P) : Prop where
  outcomes : Outcomes lower parseURL updateRoutes dialled first trace log final.conn final.proxy
  ends : (∃ err, final.phase = .ended err) ↔ Fatal log
  earliest : ∀ earlier, earlier <+: log → Fatal earlier → earlier = log
  continues : ¬Fatal log → .crashed ∉ log → .stop ∉ trace →
    ∃ event, event ≠ .stop ∧ (loop lower parseURL updateRoutes quote).Enabled final event
  deadline : final.phase = .reading → (final.deadline = true ↔ ∀ payload, .applied payload ∉ log)
  stopped : ∀ early middle late, trace = early ++ .stop :: (middle ++ .select :: late) →
    final.phase = .returned ∧ ∀ interrupt, .read interrupt ∉ late

theorem Retry.ends (retry : s.Retry log) : (∃ err, s.phase = .ended err) ↔ Fatal log := by
  unfold Retry at retry
  split at retry
  next phase => simpa [phase] using retry.1 _ List.prefix_rfl
  next phase => simpa [phase] using retry.1 _ List.prefix_rfl
  next phase => simpa [phase] using retry.1 _ List.prefix_rfl
  next phase => simpa [phase] using retry _ List.prefix_rfl
  next phase => simpa [phase] using retry.1 _ List.prefix_rfl
  next err phase => simpa [phase] using retry.1

theorem Retry.earliest (retry : s.Retry log) (front : earlier <+: log) (fatal : Fatal earlier) :
    earlier = log := by
  unfold Retry at retry
  split at retry
  · exact absurd fatal (retry.1 _ front)
  · exact absurd fatal (retry.1 _ front)
  · exact absurd fatal (retry.1 _ front)
  · exact absurd fatal (retry _ front)
  · exact absurd fatal (retry.1 _ front)
  · obtain ⟨_,past,last,rfl,calm⟩ := retry
    exact (List.prefix_concat_iff.mp front).resolve_right fun early => calm _ early fatal

/-- In every run, whatever the reads and the server answer and whenever `Stop` is called. -/
theorem run_protocol {P K : Type} {lower : Char → Char} {parseURL : String → Option (String × String)}
    {updateRoutes : RouteUpdater P K} {quote : List UInt8 → String} {dialled : Conn} {first : P}
    {trace : List LoopEvent} {final : Loop P}
    (run : (loop lower parseURL updateRoutes quote).Run (start dialled first) trace final) :
    ∃ log, final.Protocol lower parseURL updateRoutes quote dialled first trace log := by
  obtain ⟨log,outcomes,retry,timed,initial⟩ := run_sound run
  refine ⟨log,outcomes,retry.ends,fun _ front fatal => retry.earliest front fatal,?_,?_,?_⟩
  · intro calm survives unstopped
    cases phase : final.phase with
    | top => exact ⟨.select,by simp,phase⟩
    | reading => exact ⟨.read none,by simp,phase⟩
    | reconnecting => exact ⟨.dial (.error ""),by simp,phase⟩
    | returned => exact absurd (run_stopping run (.inr phase)) unstopped
    | ended err => exact absurd (retry.ends.mp ⟨err,phase⟩) calm
    | crashed =>
      rw [Retry,phase] at retry
      exact absurd retry.2 survives
  · intro reading
    rw [Timed,reading] at timed
    rw [show final.deadline = !final.initialConfigRead from timed,← not_exists,← initial]
    simp
  · rintro early middle late rfl
    exact run_stopped run

section Sessions

structure After (quote : List UInt8 → String) (secondChance : Bool) (session : Session P) (s : Loop P) :
    Prop where
  proxy : s.proxy = session.proxy
  token : s.token = false
  phase : match verdict quote secondChance session with
    | .ok _ => s.phase = .reconnecting
    | .error (some err) => s.phase = .ended err
    | .error none => s.phase = .crashed

theorem After.applied {later : Session P} (after : s.After quote false later) (secondChance : Bool) :
    s.After quote secondChance { later with handed := handed,applied := true } := by
  refine ⟨after.proxy,after.token,?_⟩
  have same : verdict quote secondChance { later with handed := handed,applied := true } =
      verdict quote false later := by
    unfold verdict
    cases later.result <;> simp
  rw [same]
  exact after.phase

theorem select_free (free : s.token = false) : s.select.phase = .reading ∧ s.select.conn = s.conn ∧
    s.select.proxy = s.proxy ∧ s.select.token = false ∧ s.select.secondChance = s.secondChance := by
  rw [Loop.select,if_neg (by simp [free])]
  split <;> exact ⟨rfl,rfl,rfl,free,rfl⟩

variable (lower parseURL updateRoutes quote)

/-- One iteration that is neither stopped nor cut short. -/
theorem iteration (top : s.phase = .top) (free : s.token = false) :
    (loop lower parseURL updateRoutes quote).Run s [.select,.read none] (s.select.afterRead quote
      (readAndApplyConfig lower parseURL updateRoutes s.conn s.proxy)) := by
  obtain ⟨reading,conn,proxy,_,_⟩ := select_free free
  refine .cons top (.cons reading ?_)
  rw [← conn,← proxy]
  exact .nil

theorem calls_loop (enough : s.conn.bytes.length < fuel) (top : s.phase = .top) (free : s.token = false) :
    ∃ trace final, (loop lower parseURL updateRoutes quote).Run s trace final ∧
      final.After quote s.secondChance (calls lower parseURL updateRoutes fuel s.conn s.proxy) := by
  -- On the bytes left, which every call that succeeds makes fewer.
  induction fuel using Nat.strongRecOn generalizing s with
  | ind fuel ih =>
    have run := iteration lower parseURL updateRoutes quote top free
    obtain ⟨_,_,_,token,chance⟩ := select_free free
    have cases := call_cases lower parseURL updateRoutes s.conn s.proxy
    cases read : readAndApplyConfig lower parseURL updateRoutes s.conn s.proxy with
    | mk left after handed result =>
      rw [read] at run cases
      have kept := (afterRead_token quote s.select ⟨left,after,handed,result⟩).1.trans token
      cases result with
      | applied =>
        have shorter : left.bytes.length < fuel - 1 := cases.shorter rfl enough
        have again : (s.select.afterRead quote ⟨left,after,handed,.applied⟩).conn = left ∧
            (s.select.afterRead quote ⟨left,after,handed,.applied⟩).proxy = after ∧
            (s.select.afterRead quote ⟨left,after,handed,.applied⟩).phase = .top ∧
            (s.select.afterRead quote ⟨left,after,handed,.applied⟩).secondChance = false := by
          unfold afterRead
          dsimp only
          split <;> exact ⟨rfl,rfl,rfl,rfl⟩
        obtain ⟨conn,proxy,phase,steady⟩ := again
        obtain ⟨trace,final,later,done⟩ := ih (fuel - 1) (by omega) (conn.symm ▸ shorter) phase kept
        rw [conn,proxy,steady] at done
        rw [calls_applied read enough]
        exact ⟨_,final,run.append later,done.applied _⟩
      | failed err =>
        rw [calls_stopped read (by simp) enough]
        refine ⟨_,_,run,?_,kept,?_⟩
        · unfold afterRead
          dsimp only
          split <;> rfl
        · rw [← chance]
          unfold afterRead verdict
          cases s.select.secondChance <;> rfl
      | crashed =>
        rw [calls_stopped read (by simp) enough]
        exact ⟨_,_,run,rfl,kept,rfl⟩

/-- What `run` reports of connections that are left alone, the loop does. -/
theorem run_loop (dials : List (Except String Conn)) (top : s.phase = .top) (free : s.token = false) :
    ∃ trace final, (loop lower parseURL updateRoutes quote).Run s trace final ∧
      final.proxy = (run lower parseURL updateRoutes quote dials s.secondChance s.conn s.proxy).proxy ∧
      ∀ err, final.phase = .ended err ↔
        (run lower parseURL updateRoutes quote dials s.secondChance s.conn s.proxy).error = some err := by
  induction dials generalizing s with
  | nil =>
    obtain ⟨trace,final,steps,proxy,_,phase⟩ :=
      calls_loop lower parseURL updateRoutes quote (Nat.lt_succ_self s.conn.bytes.length) top free
    refine ⟨trace,final,steps,?_⟩
    rw [NetworkSource.run,session]
    split at phase
    next decided => simp [decided,phase,proxy]
    next decided => simp [decided,phase,proxy]
    next decided => simp [decided,phase,proxy]
  | cons dial dials ih =>
    obtain ⟨trace,middle,steps,proxy,token,phase⟩ :=
      calls_loop lower parseURL updateRoutes quote (Nat.lt_succ_self s.conn.bytes.length) top free
    unfold NetworkSource.run session
    split at phase
    next decided =>
      have dialled : (loop lower parseURL updateRoutes quote).Run s (trace ++ [.dial dial])
          (middle.afterDial dial) := steps.append (.cons phase .nil)
      cases dial with
      | error err => exact ⟨_,_,dialled,by simp [decided,afterDial,proxy]⟩
      | ok conn =>
        obtain ⟨rest,final,later,same,ends⟩ := ih (s := middle.afterDial (.ok conn)) rfl token
        refine ⟨_,final,dialled.append later,?_⟩
        simpa [decided,proxy,afterDial] using And.intro same ends
    next decided => exact ⟨trace,middle,steps,by simp [decided,phase,proxy]⟩
    next decided => exact ⟨trace,middle,steps,by simp [decided,phase,proxy]⟩

end Sessions

end Loop

end NetworkSource

namespace Sample

/-- A server that sends a configuration without routes and hangs up, is dialled again and hangs
up again. -/
def hangUps : List NetworkSource.LoopEvent :=
  [.select,.read none,.select,.read none,.dial (.ok ⟨[],none⟩),.select,.read none]

def emptyConfig : NetworkSource.Conn := ⟨[Framing.frame NetworkSource.header []],none⟩

def networkLoop : Machine (NetworkSource.Loop (Proxy Unit Unit)) NetworkSource.LoopEvent :=
  NetworkSource.loop Char.toLower (fun _ => none) unprovided fun _ => ""

theorem hangUps_end :
    let final := networkLoop.after (.start emptyConfig ⟨(),.empty⟩) hangUps
    (∃ err, final.phase = .ended err) ∧ final.initialConfigRead = true ∧
      ∃ log, final.Protocol Char.toLower (fun _ => none) unprovided (fun _ => "") emptyConfig ⟨(),.empty⟩ hangUps log := by
  have run : networkLoop.Run (.start emptyConfig ⟨(),.empty⟩) hangUps
      (networkLoop.after (.start emptyConfig ⟨(),.empty⟩) hangUps) :=
    .cons rfl (.cons rfl (.cons rfl (.cons rfl (.cons rfl (.cons rfl (.cons rfl .nil))))))
  exact ⟨⟨_,rfl⟩,rfl,NetworkSource.Loop.run_protocol run⟩

end Sample

end Centauri
