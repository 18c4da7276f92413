import Centauri.FileSource
import Centauri.Machine

/-! The loop of `FileSource.run` and the calls it takes its work from. A channel of
capacity one is a flag: a send that finds it set is dropped by `Reload` and waits in
`Stop`. -/
namespace Centauri.FileSource

/-- Where the loop stands. It holds what it has read and parsed but not yet handed on. -/
inductive Phase (K : Type) where
  | idle
  | received
  | reading (data : List UInt8) (readErr : Option String)
  | parsed (routes : List (Route K)) (fallback : Option Nat)
  | stopped

/-- The channels, the loop, the manager it updates and the errors it has sent. -/
structure Queue (P K : Type) where
  updateChan : Bool
  stopChan : Bool
  phase : Phase K
  proxy : P
  errors : List String

/-- `openFile` begins a read, with the file it finds; `install` meets the answers `a`
outside. -/
inductive QueueEvent (A : Type) where
  | reload
  | stop
  | receive
  | openFile (file : File)
  | parse
  | install (a : A)
  | halt

namespace Queue

variable {P A K : Type} (lower : Char → Char) (parseURL : String → Option (String × String))
  (updateRoutes : A → RouteUpdater P K)

def start (proxy : P) : Queue P K := ⟨false,false,.idle,proxy,[]⟩

def fail (q : Queue P K) (message : String) : Queue P K :=
  { q with phase := .idle,errors := q.errors ++ [message] }

@[simp] theorem fail_updateChan (q : Queue P K) : (q.fail message).updateChan = q.updateChan := rfl
@[simp] theorem fail_phase (q : Queue P K) : (q.fail message).phase = .idle := rfl
@[simp] theorem fail_proxy (q : Queue P K) : (q.fail message).proxy = q.proxy := rfl

def next (q : Queue P K) : QueueEvent A → Queue P K
  | .reload => { q with updateChan := true }
  | .stop => { q with stopChan := true }
  | .receive => { q with updateChan := false,phase := .received }
  | .openFile file =>
    match file with
    | .error err => q.fail ("failed to open config file: " ++ err)
    | .ok (data,readErr) => { q with phase := .reading data readErr }
  | .parse =>
    match q.phase with
    | .reading data readErr =>
      match (Config.parse lower parseURL data readErr : Except String (List (Route K) × Option Nat)) with
      | .error err => q.fail ("failed to parse config file: " ++ err)
      | .ok (routes,fallback) => { q with phase := .parsed routes fallback }
    | _ => q
  | .install a =>
    match q.phase with
    | .parsed routes fallback =>
      match updateRoutes a routes fallback q.proxy with
      | (proxy,.ok _) => { q with proxy := proxy,phase := .idle }
      | (proxy,.err err) => { q with proxy := proxy }.fail ("route manager error: " ++ err)
      | (proxy,.crashed) => { q with proxy := proxy }
    | _ => q
  | .halt => { q with stopChan := false,phase := .stopped }

/-- What `select` and the order of the statements allow. A panic of the manager ends the
run. -/
def Enabled (q : Queue P K) : QueueEvent A → Prop
  | .reload => True
  | .stop => q.stopChan = false
  | .receive => q.phase = .idle ∧ q.updateChan = true
  | .openFile _ => q.phase = .received
  | .parse => ∃ data readErr, q.phase = .reading data readErr
  | .install a => ∃ routes fallback, q.phase = .parsed routes fallback ∧
      (updateRoutes a routes fallback q.proxy).2 ≠ .crashed
  | .halt => q.phase = .idle ∧ q.stopChan = true

def machine : Machine (Queue P K) (QueueEvent A) where
  Enabled := Enabled updateRoutes
  next := next lower parseURL updateRoutes

inductive Step (q : Queue P K) : QueueEvent A → Queue P K → Prop where
  | reload : Step q .reload { q with updateChan := true }
  | stop : q.stopChan = false → Step q .stop { q with stopChan := true }
  | receive : q.phase = .idle → q.updateChan = true →
      Step q .receive { q with updateChan := false,phase := .received }
  | missing : q.phase = .received →
      Step q (.openFile (.error err)) (q.fail ("failed to open config file: " ++ err))
  | opened : q.phase = .received → Step q (.openFile (.ok (data,readErr))) { q with phase := .reading data readErr }
  | rejected : q.phase = .reading data readErr →
      Config.parse lower parseURL data readErr = (.error err : Except String (List (Route K) × Option Nat)) →
      Step q .parse (q.fail ("failed to parse config file: " ++ err))
  | parsed : q.phase = .reading data readErr → Config.parse lower parseURL data readErr = .ok (routes,fallback) →
      Step q .parse { q with phase := .parsed routes fallback }
  | refused (a : A) : q.phase = .parsed routes fallback → updateRoutes a routes fallback q.proxy = (left,.err err) →
      Step q (.install a) ({ q with proxy := left }.fail ("route manager error: " ++ err))
  | installed (a : A) : q.phase = .parsed routes fallback → updateRoutes a routes fallback q.proxy = (left,.ok ()) →
      Step q (.install a) { q with proxy := left,phase := .idle }
  | halt : q.phase = .idle → q.stopChan = true → Step q .halt { q with stopChan := false,phase := .stopped }

variable {lower parseURL updateRoutes}

theorem step_of_enabled {q : Queue P K} (enabled : (machine lower parseURL updateRoutes).Enabled q event) :
    Step lower parseURL updateRoutes q event ((machine lower parseURL updateRoutes).next q event) := by
  cases event with
  | reload => exact .reload
  | stop => exact .stop enabled
  | receive => exact .receive enabled.1 enabled.2
  | openFile file =>
    cases file with
    | error err => exact .missing enabled
    | ok contents => exact .opened enabled
  | parse =>
    obtain ⟨data,readErr,reading⟩ := enabled
    simp only [machine,next,reading]
    split
    next refused => exact .rejected reading refused
    next accepted => exact .parsed reading accepted
  | install a =>
    obtain ⟨routes,fallback,parsed,survives⟩ := enabled
    simp only [machine,next,parsed]
    split
    next accepted => exact .installed a parsed accepted
    next refused => exact .refused a parsed refused
    next crashed =>
      rw [crashed] at survives
      exact absurd rfl survives
  | halt => exact .halt enabled.1 enabled.2

def report : Outcome Unit → List String
  | .err message => [message]
  | _ => []

/-- A pass through the loop is `load`, step by step. -/
theorem pass_load (q : Queue P K) (received : q.phase = .received) (file : File) (a : A)
    (survives : (load lower parseURL (updateRoutes a) file q.proxy).2 ≠ .crashed) :
    ∃ trace, (machine lower parseURL updateRoutes).Run q (.openFile file :: trace)
      { q with
        phase := .idle
        proxy := (load lower parseURL (updateRoutes a) file q.proxy).1
        errors := q.errors ++ report (load lower parseURL (updateRoutes a) file q.proxy).2 } := by
  cases file with
  | error err =>
    refine ⟨[],.cons received ?_⟩
    simpa [machine,next,fail,load,report] using Machine.Run.nil
  | ok contents =>
    obtain ⟨data,readErr⟩ := contents
    cases parsed : (Config.parse lower parseURL data readErr : Except String (List (Route K) × Option Nat)) with
    | error err =>
      refine ⟨[.parse],.cons received (.cons ⟨data,readErr,rfl⟩ ?_)⟩
      simpa [machine,next,fail,load,report,parsed] using Machine.Run.nil
    | ok result =>
      obtain ⟨routes,fallback⟩ := result
      have reached : next lower parseURL updateRoutes (next lower parseURL updateRoutes q
          (.openFile (.ok (data,readErr)))) .parse = { q with phase := .parsed routes fallback } := by
        simp [next,parsed]
      refine ⟨[.parse,.install a],.cons received (.cons ⟨data,readErr,rfl⟩ ?_)⟩
      simp only [machine,reached]
      cases updated : updateRoutes a routes fallback q.proxy with
      | mk proxy outcome =>
        have alive : outcome ≠ .crashed := by
          rintro rfl
          simp [load,parsed,updated] at survives
        refine .cons ⟨routes,fallback,rfl,by simpa [updated] using alive⟩ ?_
        cases outcome with
        | ok _ => simpa [next,load,report,parsed,updated] using Machine.Run.nil
        | err message => simpa [next,fail,load,report,parsed,updated] using Machine.Run.nil
        | crashed => exact absurd rfl alive

end Queue

section Reloads

variable {P A K : Type}

@[simp] def QueueEvent.isRead : QueueEvent A → Bool
  | .openFile _ => true
  | _ => false

@[simp] def QueueEvent.isReload : QueueEvent A → Bool
  | .reload => true
  | _ => false

/-- The reads that are still to come for the tokens taken or waiting. -/
def Queue.credit (q : Queue P K) : Nat :=
  q.updateChan.toNat + match q.phase with
  | .received => 1
  | _ => 0

/-- Some `Reload` came after the last read began. -/
def Outstanding (trace : List (QueueEvent A)) : Prop :=
  ∃ xs ys, trace = xs ++ .reload :: ys ∧ ∀ event ∈ ys, event.isRead = false

theorem outstanding_snoc {trace : List (QueueEvent A)} : Outstanding (trace ++ [event]) ↔
    event = .reload ∨ event.isRead = false ∧ Outstanding trace := by
  constructor
  · rintro ⟨xs,ys,eq,unread⟩
    rcases List.eq_nil_or_concat ys with rfl | ⟨zs,last,rfl⟩
    · have same := List.append_inj_right' eq rfl
      exact .inl (by simpa using same)
    · rw [List.concat_eq_append,← List.cons_append,← List.append_assoc] at eq
      obtain ⟨rfl,same⟩ := List.append_inj' eq rfl
      obtain rfl : event = last := by simpa using same
      exact .inr ⟨unread event (by simp),xs,zs,rfl,fun e member => unread e (by simp [member])⟩
  · rintro (rfl | ⟨plain,xs,ys,rfl,unread⟩)
    · exact ⟨trace,[],rfl,by simp⟩
    · refine ⟨xs,ys ++ [event],by simp,fun e member => ?_⟩
      rcases List.mem_append.mp member with earlier | last
      · exact unread e earlier
      · rw [List.mem_singleton.mp last]
        exact plain

variable {lower : Char → Char} {parseURL : String → Option (String × String)}
  {updateRoutes : A → RouteUpdater P K} {trace : List (QueueEvent A)} {proxy : P} {q : Queue P K}

/-- A `Reload` that no read has followed has left its token, or the loop is about to
read. -/
theorem Queue.pending (run : (Queue.machine lower parseURL updateRoutes).Run (start proxy) trace q) :
    Outstanding trace → q.updateChan = true ∨ q.phase = .received := by
  have none : Outstanding ([] : List (QueueEvent A)) →
      (start proxy : Queue P K).updateChan = true ∨ (start proxy : Queue P K).phase = .received := by
    rintro ⟨xs,ys,eq,_⟩
    simp at eq
  refine run.history (fun trace q => Outstanding trace → q.updateChan = true ∨ q.phase = .received) ?_ none
  intro past q event held enabled outstanding
  have step := Queue.step_of_enabled enabled
  generalize (Queue.machine lower parseURL updateRoutes).next q event = q' at step ⊢
  rcases outstanding_snoc.mp outstanding with rfl | ⟨plain,earlier⟩
  · cases step
    exact .inl rfl
  · rcases held earlier with token | received
    · cases step <;> simp_all
    · cases step <;> simp_all

/-- A step that reads spends what a `Reload` may have added. -/
theorem Queue.credit_step (step : Queue.Step lower parseURL updateRoutes q event q') :
    (if event.isRead then 1 else 0) + q'.credit ≤ q.credit + if event.isReload then 1 else 0 := by
  cases step with
  | reload =>
    cases token : q.updateChan with
    | false =>
      simp [Queue.credit,token]
      omega
    | true => simp [Queue.credit,token]
  | stop => simp [Queue.credit]
  | receive idle token => simp [Queue.credit,idle,token]
  | missing received => simp [Queue.credit,received,Nat.add_comm]
  | opened received => simp [Queue.credit,received,Nat.add_comm]
  | rejected reading => simp [Queue.credit,reading]
  | parsed reading => simp [Queue.credit,reading]
  | refused _ parsed => simp [Queue.credit,parsed]
  | installed _ parsed => simp [Queue.credit,parsed]
  | halt idle => simp [Queue.credit,idle]

/-- Every read was asked for, and so are those still to come. -/
theorem Queue.balance (run : (Queue.machine lower parseURL updateRoutes).Run (start proxy) trace q) :
    trace.countP QueueEvent.isRead + q.credit ≤ trace.countP QueueEvent.isReload := by
  have none : ([] : List (QueueEvent A)).countP QueueEvent.isRead + (start proxy : Queue P K).credit ≤
      ([] : List (QueueEvent A)).countP QueueEvent.isReload := by
    simp [Queue.credit,start]
  refine run.history (fun trace q => trace.countP QueueEvent.isRead + q.credit ≤
    trace.countP QueueEvent.isReload) ?_ none
  intro past q event held enabled
  have spent := Queue.credit_step (Queue.step_of_enabled enabled)
  rw [List.countP_append,List.countP_append,List.countP_singleton,List.countP_singleton]
  omega

/-- Only a token makes the loop read again. -/
theorem Queue.received_step (step : Queue.Step lower parseURL updateRoutes q event q')
    (other : event ≠ .receive) (before : q.phase ≠ .received ∨ event.isRead = true) :
    q'.phase ≠ .received := by
  cases step <;> simp_all

/-- Between two reads the loop has been idle: the pass of the first was over. -/
theorem Queue.reads_apart {first second : File}
    (run : (Queue.machine lower parseURL updateRoutes).Run (start proxy)
      (xs ++ .openFile first :: (ys ++ .openFile second :: zs)) q) :
    ∃ us vs middle, ys = us ++ .receive :: vs ∧ (Queue.machine lower parseURL updateRoutes).Run (start proxy)
      (xs ++ .openFile first :: us) middle ∧ middle.phase = .idle := by
  obtain ⟨before,early,opens,rest⟩ := run.split
  obtain ⟨again,during,opens',_⟩ := rest.split
  have received : QueueEvent.receive ∈ ys := by
    by_contra none
    have kept := during.invariant_on (fun q => q.phase ≠ .received)
      (fun u event member between enabled => Queue.received_step (Queue.step_of_enabled enabled)
        (fun eq => none (eq ▸ member)) (.inl between))
      (Queue.received_step (Queue.step_of_enabled opens) (by simp) (.inr rfl))
    exact kept opens'
  obtain ⟨us,vs,rfl⟩ := List.append_of_mem received
  obtain ⟨middle,reached,enabled,_⟩ := during.split
  exact ⟨us,vs,middle,rfl,early.append (.cons opens reached),enabled.1⟩

variable (lower parseURL updateRoutes) in
/-- How far the pass has come for a file that was opened when the manager stood at
`before`. At its end the file is loaded, or an error is sent. -/
def Queue.Handles (file : File) (before : P) (q : Queue P K) : Prop :=
  match q.phase with
  | .reading data readErr => file = .ok (data,readErr) ∧ q.proxy = before
  | .parsed routes fallback => q.proxy = before ∧ ∃ data readErr, file = .ok (data,readErr) ∧
      Config.parse lower parseURL data readErr = .ok (routes,fallback)
  | _ => (q.errors ≠ [] ∨ ∃ a, load lower parseURL (updateRoutes a) file before = (q.proxy,.ok ())) ∧
      (Nonempty A → ∃ a, q.proxy = (load lower parseURL (updateRoutes a) file before).1)

theorem Queue.Handles.of_reading (handles : q.Handles lower parseURL updateRoutes file before)
    (reading : q.phase = .reading data readErr) : file = .ok (data,readErr) ∧ q.proxy = before := by
  simpa [Queue.Handles,reading] using handles

theorem Queue.Handles.of_parsed (handles : q.Handles lower parseURL updateRoutes file before)
    (parsed : q.phase = .parsed routes fallback) : q.proxy = before ∧ ∃ data readErr, file = .ok (data,readErr) ∧
      Config.parse lower parseURL data readErr = .ok (routes,fallback) := by
  simpa [Queue.Handles,parsed] using handles

theorem Queue.handles_step (step : Queue.Step lower parseURL updateRoutes q event q')
    (unread : event.isRead = false) (handles : q.Handles lower parseURL updateRoutes file before) :
    q'.Handles lower parseURL updateRoutes file before := by
  cases step with
  | reload => exact handles
  | stop => exact handles
  | receive idle => simpa [Queue.Handles,idle] using handles
  | missing => simp at unread
  | opened => simp at unread
  | rejected reading refused =>
    obtain ⟨rfl,same⟩ := handles.of_reading reading
    exact ⟨.inl (by simp [Queue.fail]),fun ⟨a⟩ => ⟨a,by simp [load,refused,same]⟩⟩
  | parsed reading accepted =>
    obtain ⟨rfl,same⟩ := handles.of_reading reading
    exact ⟨same,_,_,rfl,accepted⟩
  | refused a parsed updated =>
    obtain ⟨same,data,readErr,rfl,accepted⟩ := handles.of_parsed parsed
    exact ⟨.inl (by simp [Queue.fail]),fun _ => ⟨a,by simp [load,accepted,← same,updated]⟩⟩
  | installed a parsed updated =>
    obtain ⟨same,data,readErr,rfl,accepted⟩ := handles.of_parsed parsed
    exact ⟨.inr ⟨a,by simp [load,accepted,← same,updated]⟩,fun _ => ⟨a,by simp [load,accepted,← same,updated]⟩⟩
  | halt idle => simpa [Queue.Handles,idle] using handles

theorem Queue.handles_open (step : Queue.Step lower parseURL updateRoutes q (.openFile file) q') :
    q'.Handles lower parseURL updateRoutes file q.proxy := by
  cases step with
  | missing => exact ⟨.inl (by simp [Queue.fail]),fun ⟨a⟩ => ⟨a,rfl⟩⟩
  | opened => exact ⟨rfl,rfl⟩

/-- The last file that was read has been loaded, or the loop is in the middle of it. -/
theorem Queue.handles_last (run : (Queue.machine lower parseURL updateRoutes).Run (start proxy) (us ++ .openFile file :: vs) q)
    (unread : ∀ event ∈ vs, event.isRead = false) :
    ∃ before, (Queue.machine lower parseURL updateRoutes).Run (start proxy) us before ∧
      q.Handles lower parseURL updateRoutes file before.proxy := by
  obtain ⟨before,early,opens,rest⟩ := run.split
  exact ⟨before,early,rest.invariant_on _ (fun u event member held enabled =>
    Queue.handles_step (Queue.step_of_enabled enabled) (unread event member) held)
    (Queue.handles_open (Queue.step_of_enabled opens))⟩

/-- What holds after any interleaving of calls with the loop. -/
structure NoLostReload (lower : Char → Char) (parseURL : String → Option (String × String))
    (updateRoutes : A → RouteUpdater P K) (proxy : P) (trace : List (QueueEvent A)) (q : Queue P K) : Prop where
  /-- After a `Reload` that no read followed a token is pending, or the loop has taken one and
  not begun its read. -/
  pending : Outstanding trace → q.updateChan = true ∨ q.phase = .received
  /-- An idle loop without a token has loaded a file that it opened after every `Reload`. -/
  current : q.phase = .idle → q.updateChan = false → QueueEvent.reload ∈ trace →
    ∃ us file vs before a, trace = us ++ .openFile file :: vs ∧
      (∀ event ∈ vs, event.isRead = false ∧ event.isReload = false) ∧
      (Queue.machine lower parseURL updateRoutes).Run (Queue.start proxy) us before ∧
      q.proxy = (load lower parseURL (updateRoutes a) file before.proxy).1
  /-- The pass of one read is over before the next begins. -/
  apart : ∀ xs first ys second zs, trace = xs ++ .openFile first :: (ys ++ .openFile second :: zs) →
    ∃ us vs middle, ys = us ++ .receive :: vs ∧ (Queue.machine lower parseURL updateRoutes).Run
      (Queue.start proxy) (xs ++ .openFile first :: us) middle ∧ middle.phase = .idle
  bounded : trace.countP QueueEvent.isRead ≤ trace.countP QueueEvent.isReload

theorem no_lost_reload [Inhabited A] (lower : Char → Char) (parseURL : String → Option (String × String))
    (updateRoutes : A → RouteUpdater P K) (proxy : P) (trace : List (QueueEvent A)) (q : Queue P K)
    (run : (Queue.machine lower parseURL updateRoutes).Run (Queue.start proxy) trace q) :
    NoLostReload lower parseURL updateRoutes proxy trace q := by
  refine ⟨Queue.pending run,?_,?_,Nat.le_of_add_right_le (Queue.balance run)⟩
  · intro idle empty reloaded
    have settled : ¬Outstanding trace := by
      intro outstanding
      rcases Queue.pending run outstanding with token | received
      · simp [empty] at token
      · simp [idle] at received
    obtain ⟨xs,ys,split⟩ := List.append_of_mem reloaded
    have read : ∃ event ∈ trace, event.isRead = true := by
      by_contra none
      refine settled ⟨xs,ys,split,fun event member => Bool.eq_false_iff.mpr fun read => none ⟨event,?_,read⟩⟩
      simp [split,member]
    obtain ⟨us,event,vs,rfl,isRead,none⟩ := Machine.last_where read
    obtain ⟨file,rfl⟩ : ∃ file, event = .openFile file := by
      cases event with
      | openFile file => exact ⟨file,rfl⟩
      | _ => cases isRead
    have unread (event : QueueEvent A) (member : event ∈ vs) : event.isRead = false :=
      Bool.eq_false_iff.mpr (none event member)
    obtain ⟨before,early,handles⟩ := Queue.handles_last run unread
    rw [Queue.Handles,idle] at handles
    obtain ⟨a,loaded⟩ := handles.2 ⟨default⟩
    refine ⟨us,file,vs,before,a,rfl,fun event member => ⟨unread event member,?_⟩,early,loaded⟩
    -- a Reload after the last read would be outstanding
    cases event with
    | reload =>
      obtain ⟨xs,ys,rfl⟩ := List.append_of_mem member
      refine absurd ⟨us ++ .openFile file :: xs,ys,by simp,fun e later => unread e ?_⟩ settled
      simp [later]
    | _ => rfl
  · rintro xs first ys second zs rfl
    exact Queue.reads_apart run

end Reloads

end Centauri.FileSource

namespace Centauri.Sample

open FileSource

def updater : Unit → RouteUpdater (Proxy Unit Unit) Unit := fun _ routes fallback proxy =>
  Proxy.setRoutes asciiLower (none : Option (CertificateProvider Unit Unit Unit)) (fun _ => ()) routes
    fallback proxy

def taking : List (QueueEvent Unit) := [.reload,.receive]

/-- A `Reload` has happened that no read followed, and no token is pending. -/
theorem taking_without_token : ∃ q, (Queue.machine Char.toLower (fun _ => none) updater).Run
      (Queue.start ⟨(),.empty⟩) taking q ∧ Outstanding taking ∧ q.updateChan = false :=
  ⟨_,.cons trivial (.cons ⟨rfl,rfl⟩ .nil),⟨[],[.receive],rfl,by simp⟩,rfl⟩

def missing : List (QueueEvent Unit) :=
  taking ++ [.reload,.openFile (.error "no such file"),.receive,.openFile (.error "no such file")]

theorem missing_read_twice : ∃ q, (Queue.machine Char.toLower (fun _ => none) updater).Run
      (Queue.start ⟨(),.empty⟩) missing q ∧ q.phase = .idle ∧ q.errors.length = 2 ∧
      NoLostReload Char.toLower (fun _ => none) updater ⟨(),.empty⟩ missing q := by
  have run : (Queue.machine Char.toLower (fun _ => none) updater).Run (Queue.start ⟨(),.empty⟩) missing _ :=
    .cons trivial (.cons ⟨rfl,rfl⟩ (.cons trivial (.cons rfl (.cons ⟨rfl,rfl⟩ (.cons rfl .nil)))))
  exact ⟨_,run,rfl,rfl,no_lost_reload _ _ _ _ _ _ run⟩

end Centauri.Sample
