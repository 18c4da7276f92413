import Centauri.ReloadQueue

/-! The process as a whole: `run` of the command with a file source, the servers and the signals.
`signalChan` holds one signal and drops what does not fit; a send on `errChan` waits until `run`
takes it. -/
namespace Centauri

/-- `Reload` and `Stop` are called from outside; the rest is the loop of the source. -/
def FileSource.QueueEvent.isCall : QueueEvent A → Bool
  | .reload => true
  | .stop => true
  | _ => false

namespace Lifecycle

open FileSource (Queue QueueEvent load)

inductive Signal where
  | hup
  | int
  | term
  deriving DecidableEq, Repr

inductive Listener where
  | tls
  | plain
  | metrics
  deriving DecidableEq, Repr

/-- A server that fails waits for its error to be taken. -/
inductive Serving where
  | serving
  | reporting (err : String)
  | done
  deriving DecidableEq, Repr

inductive Component where
  | source
  | frontend
  deriving DecidableEq, Repr

/-- Where `run` is in its loop, or what is left to stop before it returns. -/
inductive Main where
  | selecting
  | reloading
  | notifying
  | halting (result : Option String) (left : List Component)
  deriving DecidableEq, Repr

/-- The order in which things are stopped depends on why. -/
def stopOrder : Option String → List Component
  | none => [.source,.frontend]
  | some _ => [.frontend,.source]

def Main.cause : Main → List (Option String)
  | .selecting => []
  | .reloading => []
  | .notifying => [none]
  | .halting result _ => [result]

def Main.left : Main → List Component
  | .halting _ left => left
  | _ => []

def Main.order : Main → List Component
  | .halting result _ => stopOrder result
  | _ => []

/-- `delivered` counts the errors of the source that were taken; the next one waits. -/
structure Process (P K : Type) where
  main : Main
  signalChan : Option Signal
  metricsChan : Bool
  listeners : Listener → Serving
  queue : Queue P K
  delivered : Nat

/-- The source sends its errors without a name, the others are servers. -/
inductive Event (A : Type) where
  | signal (sig : Signal)
  | take (sig : Signal)
  | reload
  | notify
  | stop (component : Component)
  | fail (listener : Listener) (err : String)
  | stopMetrics
  | receive (sender : Option Listener) (err : String)
  | source (event : QueueEvent A)

def Event.ending : Event A → Option (Option String)
  | .take .hup => none
  | .take _ => some none
  | .receive _ err => some (some err)
  | _ => none

def Event.stopped : Event A → Option Component
  | .stop component => some component
  | _ => none

def Event.isMain : Event A → Bool
  | .notify => true
  | .stop _ => true
  | _ => false

namespace Process

variable {P A K : Type} (lower : Char → Char) (parseURL : String → Option (String × String))
  (updateRoutes : A → RouteUpdater P K)

structure Begins (p : Process P K) : Prop where
  main : p.main = .selecting
  metricsChan : p.metricsChan = false
  queue : ∃ proxy, p.queue = { Queue.start proxy with updateChan := true }
  delivered : p.delivered = 0

def Blocked (p : Process P K) : Prop := p.delivered < p.queue.errors.length

def Running (p : Process P K) : Prop := ∀ result, p.main ≠ .halting result []

def Enabled (p : Process P K) (event : Event A) : Prop :=
  p.Running ∧ match event with
  | .signal _ => True
  | .take sig => p.main = .selecting ∧ p.signalChan = some sig
  | .reload => p.main = .reloading
  | .notify => p.main = .notifying ∧ p.metricsChan = false
  | .stop component => (∃ result left, p.main = .halting result (component :: left)) ∧
    (component = .source → p.queue.stopChan = false)
  | .fail listener _ => p.listeners listener = .serving
  | .stopMetrics => p.metricsChan = true
  | .receive (some listener) err => p.main = .selecting ∧ p.listeners listener = .reporting err
  | .receive none err => p.main = .selecting ∧ p.queue.errors[p.delivered]? = some err
  | .source event => ¬p.Blocked ∧ event.isCall = false ∧ Queue.Enabled updateRoutes p.queue event

/-- A server that is shut down returns from `Serve` without an error to report. -/
def close (p : Process P K) (closed : Listener → Bool) : Process P K :=
  { p with listeners := fun listener =>
      if closed listener ∧ p.listeners listener = .serving then .done else p.listeners listener }

def next (p : Process P K) : Event A → Process P K
  | .signal sig => { p with signalChan := some (p.signalChan.getD sig) }
  | .take sig => { p with signalChan := none,main := if sig = .hup then .reloading else .notifying }
  | .reload => { p with main := .selecting,queue := p.queue.next lower parseURL updateRoutes .reload }
  | .notify => { p with metricsChan := true,main := .halting none (stopOrder none) }
  | .stop component =>
    match p.main with
    | .halting result (_ :: left) =>
      match component with
      | .source => { p with main := .halting result left,queue := p.queue.next lower parseURL updateRoutes .stop }
      | .frontend => { p.close (· != .metrics) with main := .halting result left }
    | _ => p
  | .fail listener err => { p with listeners := Function.update p.listeners listener (.reporting err) }
  | .stopMetrics => { p.close (· == .metrics) with metricsChan := false }
  | .receive (some listener) err =>
    { p with
      main := .halting (some err) (stopOrder (some err))
      listeners := Function.update p.listeners listener .done }
  | .receive none err => { p with main := .halting (some err) (stopOrder (some err)),delivered := p.delivered + 1 }
  | .source event => { p with queue := p.queue.next lower parseURL updateRoutes event }

def machine : Machine (Process P K) (Event A) := ⟨Enabled updateRoutes,next lower parseURL updateRoutes⟩

inductive Step (p : Process P K) : Event A → Process P K → Prop where
  | signal : Step p (.signal sig) { p with signalChan := some (p.signalChan.getD sig) }
  | takeHup : p.main = .selecting → Step p (.take .hup) { p with signalChan := none,main := .reloading }
  | takeEnd : p.main = .selecting → sig ≠ .hup → Step p (.take sig) { p with signalChan := none,main := .notifying }
  | reload : p.main = .reloading →
      Step p .reload { p with main := .selecting,queue := { p.queue with updateChan := true } }
  | notify : p.main = .notifying → Step p .notify { p with metricsChan := true,main := .halting none (stopOrder none) }
  | stopSource : p.main = .halting result (.source :: left) → p.queue.stopChan = false →
      Step p (.stop .source) { p with main := .halting result left,queue := { p.queue with stopChan := true } }
  | stopFrontend : p.main = .halting result (.frontend :: left) →
      Step p (.stop .frontend) { p.close (· != .metrics) with main := .halting result left }
  | fail : Step p (.fail listener err) { p with listeners := Function.update p.listeners listener (.reporting err) }
  | stopMetrics : Step p .stopMetrics { p.close (· == .metrics) with metricsChan := false }
  | receiveServer : p.main = .selecting →
      Step p (.receive (some listener) err)
        { p with
          main := .halting (some err) (stopOrder (some err))
          listeners := Function.update p.listeners listener .done }
  | receiveSource : p.main = .selecting → p.queue.errors[p.delivered]? = some err →
      Step p (.receive none err)
        { p with main := .halting (some err) (stopOrder (some err)),delivered := p.delivered + 1 }
  | source : ¬p.Blocked → event.isCall = false → Queue.Step lower parseURL updateRoutes p.queue event moved →
      Step p (.source event) { p with queue := moved }

variable {lower parseURL updateRoutes} {p q : Process P K} {trace : List (Event A)} {event : Event A} {m m' : Main}

theorem step_of_enabled (enabled : (machine lower parseURL updateRoutes).Enabled p event) :
    Step lower parseURL updateRoutes p event ((machine lower parseURL updateRoutes).next p event) := by
  obtain ⟨_,enabled⟩ := enabled
  cases event with
  | signal sig => exact .signal
  | take sig =>
    obtain ⟨selecting,_⟩ := enabled
    simp only [machine,next]
    split
    next hup =>
      subst hup
      exact .takeHup selecting
    next other => exact .takeEnd selecting other
  | reload => exact .reload enabled
  | notify => exact .notify enabled.1
  | stop component =>
    obtain ⟨⟨result,left,halting⟩,free⟩ := enabled
    cases component with
    | source =>
      simp only [machine,next,halting]
      exact .stopSource halting (free rfl)
    | frontend =>
      simp only [machine,next,halting]
      exact .stopFrontend halting
  | fail listener err => exact .fail
  | stopMetrics => exact .stopMetrics
  | receive sender err =>
    cases sender with
    | none => exact .receiveSource enabled.1 enabled.2
    | some listener => exact .receiveServer enabled.1
  | source event => exact .source enabled.1 enabled.2.1 (Queue.step_of_enabled enabled.2.2)

def Unstopped : Main → Prop
  | .halting _ left => .source ∈ left
  | _ => True

def Serves : Main → Prop
  | .selecting => True
  | .reloading => True
  | _ => False

structure Sound (p : Process P K) : Prop where
  once : p.queue.errors.length ≤ p.delivered + 1
  untaken : Serves p.main → p.delivered = 0
  stopChan : Unstopped p.main → p.queue.stopChan = false
  metricsChan : Serves p.main ∨ p.main = .notifying → p.metricsChan = false
  distinct : ∀ result left, p.main = .halting result left → left.Nodup

theorem Begins.sound (begins : p.Begins) : p.Sound := by
  obtain ⟨proxy,queue⟩ := begins.queue
  refine ⟨?_,fun _ => begins.delivered,fun _ => ?_,fun _ => begins.metricsChan,fun _ _ halting => ?_⟩
  · simp [queue,Queue.start]
  · simp [queue,Queue.start]
  · rw [begins.main] at halting
    cases halting

theorem stopOrder_nodup (result : Option String) : (stopOrder result).Nodup := by
  cases result <;> simp [stopOrder]

/-- A pass of the loop adds at most one error, and nothing but a call fills `stopChan`. -/
theorem errors_step {r r' : Queue P K} (step : Queue.Step lower parseURL updateRoutes r call r') :
    r'.errors.length ≤ r.errors.length + 1 ∧ (call.isCall = false → r.stopChan = false → r'.stopChan = false) := by
  cases step with
  | stop => exact ⟨Nat.le_succ _,nofun⟩
  | reload => exact ⟨Nat.le_succ _,nofun⟩
  | missing => exact ⟨by simp [Queue.fail],fun _ same => same⟩
  | rejected => exact ⟨by simp [Queue.fail],fun _ same => same⟩
  | refused => exact ⟨by simp [Queue.fail],fun _ same => same⟩
  | halt => exact ⟨Nat.le_succ _,fun _ _ => rfl⟩
  | _ => exact ⟨Nat.le_succ _,fun _ same => same⟩

theorem Sound.step (sound : p.Sound) (step : Step lower parseURL updateRoutes p event q) : q.Sound := by
  have served (serves : Serves p.main) : p.delivered = 0 ∧ p.queue.stopChan = false ∧ p.metricsChan = false := by
    refine ⟨sound.untaken serves,sound.stopChan ?_,sound.metricsChan (.inl serves)⟩
    cases main : p.main with
    | halting result left =>
      rw [main] at serves
      exact serves.elim
    | _ => trivial
  cases step with
  | signal => exact ⟨sound.once,sound.untaken,sound.stopChan,sound.metricsChan,sound.distinct⟩
  | takeHup selecting =>
    obtain ⟨untaken,stopChan,metricsChan⟩ := served (selecting ▸ trivial)
    exact ⟨sound.once,fun _ => untaken,fun _ => stopChan,fun _ => metricsChan,nofun⟩
  | takeEnd selecting =>
    obtain ⟨_,stopChan,metricsChan⟩ := served (selecting ▸ trivial)
    exact ⟨sound.once,nofun,fun _ => stopChan,fun _ => metricsChan,nofun⟩
  | reload reloading =>
    obtain ⟨untaken,stopChan,metricsChan⟩ := served (reloading ▸ trivial)
    exact ⟨sound.once,fun _ => untaken,fun _ => stopChan,fun _ => metricsChan,nofun⟩
  | notify notifying =>
    refine ⟨sound.once,nofun,fun _ => sound.stopChan (notifying ▸ trivial),by rintro (⟨⟨⟩⟩ | ⟨⟨⟩⟩),?_⟩
    rintro _ _ ⟨⟩
    exact stopOrder_nodup none
  | stopSource halting =>
    obtain ⟨once,distinct⟩ := List.nodup_cons.mp (sound.distinct _ _ halting)
    refine ⟨sound.once,nofun,fun again => absurd again once,by rintro (⟨⟨⟩⟩ | ⟨⟨⟩⟩),?_⟩
    rintro _ _ ⟨⟩
    exact distinct
  | stopFrontend halting =>
    have distinct := (List.nodup_cons.mp (sound.distinct _ _ halting)).2
    refine ⟨sound.once,nofun,fun left => sound.stopChan ?_,by rintro (⟨⟨⟩⟩ | ⟨⟨⟩⟩),?_⟩
    · rw [halting]
      exact List.mem_cons_of_mem _ left
    · rintro _ _ ⟨⟩
      exact distinct
  | fail => exact ⟨sound.once,sound.untaken,sound.stopChan,sound.metricsChan,sound.distinct⟩
  | stopMetrics => exact ⟨sound.once,sound.untaken,sound.stopChan,fun _ => rfl,sound.distinct⟩
  | receiveServer selecting =>
    refine ⟨sound.once,nofun,fun _ => (served (selecting ▸ trivial)).2.1,by rintro (⟨⟨⟩⟩ | ⟨⟨⟩⟩),?_⟩
    rintro _ _ ⟨⟩
    exact stopOrder_nodup _
  | receiveSource selecting =>
    refine ⟨Nat.le_trans sound.once (Nat.le_succ _),nofun,fun _ => (served (selecting ▸ trivial)).2.1,
      by rintro (⟨⟨⟩⟩ | ⟨⟨⟩⟩),?_⟩
    rintro _ _ ⟨⟩
    exact stopOrder_nodup _
  | source unblocked loop step =>
    obtain ⟨more,stop⟩ := errors_step step
    refine ⟨?_,sound.untaken,fun unstopped => stop loop (sound.stopChan unstopped),sound.metricsChan,sound.distinct⟩
    unfold Blocked at unblocked
    dsimp only
    omega

theorem run_sound (run : (machine lower parseURL updateRoutes).Run p trace q) (sound : p.Sound) : q.Sound :=
  run.invariant Sound (fun _ _ sound enabled => sound.step (step_of_enabled enabled)) sound

/-- The outcome is decided by one event, and what was and will be stopped is told by it. -/
structure Ended (trace : List (Event A)) (m : Main) : Prop where
  cause : trace.filterMap Event.ending = m.cause
  stops : trace.filterMap Event.stopped ++ m.left = m.order

theorem Ended.snoc (ended : Ended trace m) (cause : m.cause ++ event.ending.toList = m'.cause)
    (stops : ∀ before, before ++ m.left = m.order → before ++ event.stopped.toList ++ m'.left = m'.order) :
    Ended (trace ++ [event]) m' := by
  have split {β : Type} (f : Event A → Option β) : (trace ++ [event]).filterMap f = trace.filterMap f ++ (f event).toList := by
    rw [List.filterMap_append]
    cases value : f event <;> simp [value]
  exact ⟨by rw [split,ended.cause,cause],by rw [split]; exact stops _ ended.stops⟩

theorem Ended.step (ended : Ended trace p.main) (step : Step lower parseURL updateRoutes p event q) :
    Ended (trace ++ [event]) q.main := by
  have silent {event : Event A} (ending : event.ending = none) (stopped : event.stopped = none) :
      Ended (trace ++ [event]) p.main :=
    ended.snoc (by simp [ending]) (by simp [stopped])
  cases step with
  | takeHup selecting =>
    rw [selecting] at ended
    exact ended.snoc rfl (by simp [Event.stopped,Main.left,Main.order])
  | @takeEnd sig selecting other =>
    rw [selecting] at ended
    have ending : (Event.take sig : Event A).ending = some none := by
      cases sig with
      | hup => exact absurd rfl other
      | int => rfl
      | term => rfl
    exact ended.snoc (by rw [ending]; rfl) (by simp [Event.stopped,Main.left,Main.order])
  | reload reloading =>
    rw [reloading] at ended
    exact ended.snoc rfl (by simp [Event.stopped,Main.left,Main.order])
  | notify notifying =>
    rw [notifying] at ended
    exact ended.snoc rfl (by simp [Event.stopped,Main.left,Main.order])
  | stopSource halting =>
    rw [halting] at ended
    exact ended.snoc rfl (by simp [Event.stopped,Main.left,Main.order])
  | stopFrontend halting =>
    rw [halting] at ended
    exact ended.snoc rfl (by simp [Event.stopped,Main.left,Main.order])
  | receiveServer selecting =>
    rw [selecting] at ended
    exact ended.snoc rfl (by simp [Event.stopped,Main.left,Main.order])
  | receiveSource selecting =>
    rw [selecting] at ended
    exact ended.snoc rfl (by simp [Event.stopped,Main.left,Main.order])
  | _ => exact silent rfl rfl

theorem run_ended (run : (machine lower parseURL updateRoutes).Run p trace q) (begins : p.Begins) : Ended trace q.main := by
  have start : Ended ([] : List (Event A)) p.main := by
    rw [begins.main]
    exact ⟨rfl,rfl⟩
  exact run.history (fun trace q => Ended trace q.main) (fun _ _ _ ended enabled => ended.step (step_of_enabled enabled)) start

/-- What is left to stop is stopped without waiting. -/
theorem halting_runs (sound : p.Sound) (halting : p.main = .halting result left) :
    ∃ final, (machine lower parseURL updateRoutes).Run p (left.map .stop) final ∧ final.main = .halting result [] := by
  induction left generalizing p with
  | nil => exact ⟨p,.nil,halting⟩
  | cons component left ih =>
    have enabled : (machine lower parseURL updateRoutes).Enabled p (.stop component) := by
      refine ⟨fun r returned => ?_,⟨result,left,halting⟩,fun source => sound.stopChan ?_⟩
      · rw [halting] at returned
        cases returned
      · rw [halting,source]
        exact List.mem_cons_self
    have step : Step lower parseURL updateRoutes p (.stop component) _ := step_of_enabled enabled
    have moved : ((machine lower parseURL updateRoutes).next p (.stop component)).main = .halting result left := by
      simp only [machine,next,halting]
      cases component <;> rfl
    obtain ⟨final,run,returned⟩ := ih (sound.step step) moved
    exact ⟨final,.cons enabled run,returned⟩

/-- A process either serves, and has stopped nothing, or it was ended by exactly one thing that
`run` took from its channels: a signal that asks for it, or an error. Then `run` is at most three
steps of its own from returning that error, or none, whatever the others do; on the way the
source and the frontend are stopped once each. -/
theorem shutdown_completes (lower : Char → Char) (parseURL : String → Option (String × String))
    (updateRoutes : A → RouteUpdater P K) (p q : Process P K) (trace : List (Event A)) (begins : p.Begins)
    (run : (machine lower parseURL updateRoutes).Run p trace q) :
    (Serves q.main ∧ trace.filterMap Event.ending = [] ∧ trace.filterMap Event.stopped = []) ∨
    ∃ result last final, trace.filterMap Event.ending = [result] ∧
      (machine lower parseURL updateRoutes).Run q last final ∧ final.main = .halting result [] ∧
      last.length ≤ 3 ∧ (∀ event ∈ last, event.isMain = true) ∧
      (trace ++ last).filterMap Event.stopped = stopOrder result := by
  have sound := run_sound run begins.sound
  have ended := run_ended run begins
  -- From where the rest is stopped in order, `run` returns.
  have returns {r : Process P K} {first : List (Event A)} {result : Option String} {left : List Component}
      (begun : (machine lower parseURL updateRoutes).Run q first r) (halting : r.main = .halting result left)
      (short : first.length + left.length ≤ 3) (own : ∀ event ∈ first, event.isMain = true)
      (after : Ended (trace ++ first) r.main) (cause : trace.filterMap Event.ending = [result]) :
      ∃ result last final, trace.filterMap Event.ending = [result] ∧
        (machine lower parseURL updateRoutes).Run q last final ∧ final.main = .halting result [] ∧
        last.length ≤ 3 ∧ (∀ event ∈ last, event.isMain = true) ∧
        (trace ++ last).filterMap Event.stopped = stopOrder result := by
    obtain ⟨final,rest,returned⟩ := halting_runs (run_sound begun sound) halting
    refine ⟨result,first ++ left.map .stop,final,cause,begun.append rest,returned,by simpa using short,?_,?_⟩
    · intro event member
      rcases List.mem_append.mp member with early | late
      · exact own event early
      · obtain ⟨component,_,rfl⟩ := List.mem_map.mp late
        rfl
    · have stops := after.stops
      rw [halting] at stops
      rw [← List.append_assoc,List.filterMap_append,List.filterMap_map]
      have all : left.filterMap (Event.stopped ∘ (.stop : Component → Event A)) = left := List.filterMap_some
      rw [all]
      exact stops
  cases main : q.main with
  | selecting =>
    rw [main] at ended
    exact .inl ⟨trivial,ended.cause,by simpa [Main.left,Main.order] using ended.stops⟩
  | reloading =>
    rw [main] at ended
    exact .inl ⟨trivial,ended.cause,by simpa [Main.left,Main.order] using ended.stops⟩
  | notifying =>
    have enabled : (machine lower parseURL updateRoutes).Enabled q .notify :=
      ⟨fun _ returned => (nomatch main.symm.trans returned),main,sound.metricsChan (.inr main)⟩
    have cause := ended.cause
    rw [main] at cause
    exact .inr (returns (.cons enabled .nil) rfl (by simp [stopOrder]) (by simp [Event.isMain]) (ended.step (step_of_enabled enabled)) cause)
  | halting result left =>
    have cause := ended.cause
    have stops := congrArg List.length ended.stops
    rw [main] at cause stops
    have short : left.length ≤ 3 := by
      have order : (stopOrder result).length = 2 := by cases result <;> rfl
      simp only [Main.left,Main.order,List.length_append,order] at stops
      omega
    exact .inr (returns .nil main (by simpa using short) (by simp) (by simpa using ended) cause)

section Reloading

/-- No read has begun since the last SIGHUP, or since the start. -/
def Asked (trace : List (Event A)) : Prop :=
  ∀ us file vs, trace = us ++ .source (.openFile file) :: vs → .signal .hup ∈ vs

theorem asked_snoc (asked : Asked (trace ++ [event])) : event = .signal .hup ∨
    (∀ file, event ≠ .source (.openFile file)) ∧ Asked trace := by
  by_cases hup : event = .signal .hup
  · exact .inl hup
  · refine .inr ⟨?_,?_⟩
    · rintro file rfl
      exact absurd (asked trace file [] rfl) List.not_mem_nil
    · rintro us file vs rfl
      have member := asked us file (vs ++ [event]) (by simp)
      rcases List.mem_append.mp member with early | last
      · exact early
      · exact absurd (List.mem_singleton.mp last).symm hup

/-- The reload that was asked for is on its way to the loop of the source. -/
def Coming (p : Process P K) : Prop :=
  p.main ≠ .selecting ∨ p.signalChan ≠ none ∨ p.queue.updateChan = true ∨ p.queue.phase = .received

theorem Begins.coming (begins : p.Begins) : p.Coming := by
  obtain ⟨proxy,queue⟩ := begins.queue
  exact .inr (.inr (.inl (by rw [queue])))

theorem Coming.step (coming : p.Coming) (step : Step lower parseURL updateRoutes p event q)
    (unread : ∀ file, event ≠ .source (.openFile file)) : q.Coming := by
  cases step with
  | signal => exact .inr (.inl (by simp))
  | takeHup => exact .inl nofun
  | takeEnd => exact .inl nofun
  | reload => exact .inr (.inr (.inl rfl))
  | notify => exact .inl nofun
  | stopSource => exact .inl nofun
  | stopFrontend => exact .inl nofun
  | receiveServer => exact .inl nofun
  | receiveSource => exact .inl nofun
  | fail => exact coming
  | stopMetrics => exact coming
  | source _ loop moved =>
    rcases coming with busy | waiting | token | received
    · exact .inl busy
    · exact .inr (.inl waiting)
    · cases moved with
      | receive => exact .inr (.inr (.inr rfl))
      | reload => cases loop
      | missing => exact absurd rfl (unread _)
      | opened => exact absurd rfl (unread _)
      | _ => exact .inr (.inr (.inl token))
    · cases moved with
      | receive => exact .inr (.inr (.inr rfl))
      | reload => cases loop
      | stop => cases loop
      | missing => exact absurd rfl (unread _)
      | opened => exact absurd rfl (unread _)
      | rejected reading => exact nomatch received.symm.trans reading
      | parsed reading => exact nomatch received.symm.trans reading
      | refused _ parsed => exact nomatch received.symm.trans parsed
      | installed _ parsed => exact nomatch received.symm.trans parsed
      | halt idle => exact nomatch received.symm.trans idle

theorem run_coming (run : (machine lower parseURL updateRoutes).Run p trace q) (begins : p.Begins) :
    Asked trace → q.Coming := by
  have start : Asked ([] : List (Event A)) → p.Coming := fun _ => begins.coming
  refine run.history (fun trace q => Asked trace → q.Coming) ?_ start
  intro past u event held enabled asked
  have step : Step lower parseURL updateRoutes u event _ := step_of_enabled enabled
  rcases asked_snoc asked with rfl | ⟨unread,earlier⟩
  · exact .inr (.inl (by simp [machine,next]))
  · exact (held earlier).step step unread

/-- The source moves by its own steps and by the calls of `run`. -/
theorem queue_step (step : Step lower parseURL updateRoutes p event q) : q.queue = p.queue ∨
    ∃ call, Queue.Step lower parseURL updateRoutes p.queue call q.queue ∧
      ∀ file, call = .openFile file → event = .source (.openFile file) := by
  cases step with
  | reload => exact .inr ⟨.reload,.reload,nofun⟩
  | stopSource _ free => exact .inr ⟨.stop,.stop free,nofun⟩
  | @source call _ _ _ moved => exact .inr ⟨call,moved,by rintro file rfl; rfl⟩
  | _ => exact .inl rfl

theorem run_handles (run : (machine lower parseURL updateRoutes).Run p trace q)
    (unread : ∀ file, .source (.openFile file) ∉ trace) (handles : p.queue.Handles lower parseURL updateRoutes file before) :
    q.queue.Handles lower parseURL updateRoutes file before := by
  refine run.invariant_on (fun u => u.queue.Handles lower parseURL updateRoutes file before) ?_ handles
  intro u event member handles enabled
  rcases queue_step (step_of_enabled enabled) with same | ⟨call,moved,own⟩
  · rw [same]
    exact handles
  · refine Queue.handles_step moved ?_ handles
    cases call with
    | openFile file => exact absurd (own file rfl ▸ member) (unread file)
    | _ => rfl

/-- Of the reads that no SIGHUP followed, the last. -/
theorem last_open (unasked : ¬Asked trace) : ∃ us file vs, trace = us ++ .source (.openFile file) :: vs ∧
    .signal .hup ∉ vs ∧ ∀ file, .source (.openFile file) ∉ vs := by
  simp only [Asked,not_forall] at unasked
  obtain ⟨us,file,vs,rfl,quiet⟩ := unasked
  obtain ⟨as,_,bs,split,⟨last,rfl⟩,none⟩ := Machine.last_where
    (⟨_,List.mem_cons_self,file,rfl⟩ : ∃ event ∈ .source (.openFile file) :: vs, ∃ file, event = .source (.openFile file))
  refine ⟨us ++ as,last,bs,by rw [split,List.append_assoc],?_,fun file member => none _ member ⟨file,rfl⟩⟩
  intro hup
  have member : .signal .hup ∈ Event.source (.openFile file) :: vs := by simp [split,hup]
  exact quiet (by simpa using member)

/-- While `run` waits for signals and errors, all loads have succeeded but perhaps the last, whose
error is then offered to `run` and holds the source. When nothing is on its way, the manager has
the configuration of a file that was opened after every SIGHUP. -/
theorem serving_is_current (lower : Char → Char) (parseURL : String → Option (String × String))
    (updateRoutes : A → RouteUpdater P K) (p q : Process P K) (trace : List (Event A)) (begins : p.Begins)
    (run : (machine lower parseURL updateRoutes).Run p trace q) (selecting : q.main = .selecting) :
    (q.queue.errors = [] ∨ ∃ err, q.queue.errors = [err] ∧
      (machine lower parseURL updateRoutes).Enabled q (.receive none err) ∧
      ∀ call, ¬(machine lower parseURL updateRoutes).Enabled q (.source call)) ∧
    (q.signalChan = none → q.queue.updateChan = false → q.queue.phase = .idle → q.queue.errors = [] →
      ∃ us file vs before a, trace = us ++ .source (.openFile file) :: vs ∧ .signal .hup ∉ vs ∧
        (machine lower parseURL updateRoutes).Run p us before ∧
        load lower parseURL (updateRoutes a) file before.queue.proxy = (q.queue.proxy,.ok ())) := by
  have sound := run_sound run begins.sound
  have untaken : q.delivered = 0 := sound.untaken (selecting ▸ trivial)
  refine ⟨?_,fun noSignal noToken idle noError => ?_⟩
  · have once := sound.once
    rw [untaken] at once
    cases errors : q.queue.errors with
    | nil => exact .inl rfl
    | cons err rest =>
      obtain rfl : rest = [] := List.eq_nil_of_length_eq_zero (by simp only [errors,List.length_cons] at once; omega)
      refine .inr ⟨err,rfl,⟨fun _ returned => (nomatch selecting.symm.trans returned),selecting,?_⟩,fun call enabled => ?_⟩
      · rw [untaken,errors]
        rfl
      · refine enabled.2.1 ?_
        rw [Blocked,untaken,errors]
        exact Nat.zero_lt_one
  · have settled : ¬q.Coming := by
      rintro (busy | signal | token | received)
      · exact busy selecting
      · exact signal noSignal
      · rw [noToken] at token
        cases token
      · exact nomatch idle.symm.trans received
    obtain ⟨us,file,vs,rfl,quiet,unread⟩ := last_open fun asked => settled (run_coming run begins asked)
    obtain ⟨before,early,opened,late⟩ := run.split
    have done := run_handles late unread (Queue.handles_open (Queue.step_of_enabled opened.2.2.2))
    rw [Queue.Handles,idle] at done
    rcases done.1 with failed | ⟨a,loaded⟩
    · exact absurd noError failed
    · exact ⟨us,file,vs,before,a,rfl,quiet,early,loaded⟩

end Reloading

end Process

namespace Sample

def counting (_ : Unit) : RouteUpdater Nat Unit := fun _ _ count => (count + 1,.ok ())

def process : Machine (Process Nat Unit) (Event Unit) := Process.machine Char.toLower (fun _ => none) counting

def started : Process Nat Unit :=
  ⟨.selecting,none,false,fun _ => .serving,{ Queue.start 0 with updateChan := true },0⟩

theorem started_begins : started.Begins := ⟨rfl,rfl,⟨0,rfl⟩,rfl⟩

def pass : List (Event Unit) :=
  [.source .receive,.source (.openFile (.ok ([],none))),.source .parse,.source (.install ())]

def reloaded : List (Event Unit) := pass ++ [.signal .hup,.signal .hup,.take .hup,.reload] ++ pass

theorem reloaded_runs : process.Run started reloaded (process.after started reloaded) :=
  .cons ⟨nofun,Nat.lt_irrefl 0,rfl,rfl,rfl⟩ (.cons ⟨nofun,Nat.lt_irrefl 0,rfl,rfl⟩
    (.cons ⟨nofun,Nat.lt_irrefl 0,rfl,_,_,rfl⟩ (.cons ⟨nofun,Nat.lt_irrefl 0,rfl,_,_,rfl,nofun⟩
    (.cons ⟨nofun,trivial⟩ (.cons ⟨nofun,trivial⟩ (.cons ⟨nofun,rfl,rfl⟩ (.cons ⟨nofun,rfl⟩
    (.cons ⟨nofun,Nat.lt_irrefl 0,rfl,rfl,rfl⟩ (.cons ⟨nofun,Nat.lt_irrefl 0,rfl,rfl⟩
    (.cons ⟨nofun,Nat.lt_irrefl 0,rfl,_,_,rfl⟩ (.cons ⟨nofun,Nat.lt_irrefl 0,rfl,_,_,rfl,nofun⟩ .nil)))))))))))

theorem reloaded_current : ∃ us file vs before a, reloaded = us ++ .source (.openFile file) :: vs ∧ .signal .hup ∉ vs ∧
    process.Run started us before ∧
    load Char.toLower (fun _ => none) (counting a) file before.queue.proxy = (2,.ok ()) :=
  (Process.serving_is_current Char.toLower (fun _ => none) counting started _ reloaded started_begins reloaded_runs rfl).2
    rfl rfl rfl rfl

/-- SIGTERM while a load has failed, which `run` may or may not hear of first. -/
def terminated : List (Event Unit) :=
  [.source .receive,.signal .term,.source (.openFile (.error "permission denied")),.take .term]

theorem terminated_returns : ∃ last final, process.Run (process.after started terminated) last final ∧
    final.main = .halting none [] := by
  have run : process.Run started terminated (process.after started terminated) :=
    .cons ⟨nofun,Nat.lt_irrefl 0,rfl,rfl,rfl⟩ (.cons ⟨nofun,trivial⟩ (.cons ⟨nofun,Nat.lt_irrefl 0,rfl,rfl⟩
      (.cons ⟨nofun,rfl,rfl⟩ .nil)))
  rcases Process.shutdown_completes Char.toLower (fun _ => none) counting started _ terminated started_begins run with
    ⟨serves,_⟩ | ⟨result,last,final,cause,run,returned,_⟩
  · exact serves.elim
  · cases cause
    exact ⟨last,final,run,returned⟩

/-- A SIGTERM that finds another signal waiting is lost: the process goes on. -/
theorem sigterm_lost : (process.after started [.signal .hup,.signal .term,.take .hup,.reload]).main = .selecting ∧
    (process.after started [.signal .hup,.signal .term,.take .hup,.reload]).signalChan = none :=
  ⟨rfl,rfl⟩

end Sample

end Lifecycle

end Centauri
