import Centauri.ConfigWriting
import Centauri.NetworkSource
import Centauri.RouteLookup

/-! A server that publishes tables of routes, and connections to it that may break off anywhere.
Only tables that arrive as a whole are applied. -/
namespace Centauri.NetworkSource

abbrev Published (K : Type) := List (Route K) × Option Nat

variable {S A K : Type}

section Publishing

variable (path : ErrorMapping → String)

def tablePayload (t : Published K) : List UInt8 := Config.write path t.1 t.2

def publish (tables : List (Published K)) : List UInt8 := Framing.frames header (tables.map (tablePayload path))

/-- A table that can be written, with domains that the manager accepts. -/
structure Publishable (parseURL : String → Option (String × String)) (t : Published K) : Prop where
  writable : ∀ r ∈ t.1, Config.RouteWritable path parseURL r
  within : ∀ i, t.2 = some i → i < t.1.length
  short : ∀ line ∈ Config.tableLines path t.1 t.2, line.text.toList.length < Bufio.maxTokenSize
  bound : (tablePayload path t).length < 2 ^ 32
  valid : RouteMap.Valid t.1

structure Whole (parseURL : String → Option (String × String)) (stream : List UInt8) (tables : List (Published K)) :
    Prop where
  front : publish path tables <+: stream
  longest : ∀ t, Publishable path parseURL t → ¬publish path (tables ++ [t]) <+: stream

end Publishing

/-- `SetRoutes` as the updater. The state counts the calls, each of which has answers of its own. -/
def updater (lower : Char → Char) (provider : Option (CertificateProvider S A K)) (answers : Nat → Nat → A) :
    RouteUpdater (Proxy S K × Nat) K := fun routes fallback state =>
  let updated := Proxy.setRoutes (Strings.toLower lower) provider (answers state.2) routes fallback state.1
  ((updated.1,state.2 + 1),updated.2)

variable {lower : Char → Char} {parseURL : String → Option (String × String)} {path : ErrorMapping → String}
  {provider : Option (CertificateProvider S A K)} {answers : Nat → Nat → A}

@[simp] theorem publish_cons (t : Published K) (tables : List (Published K)) :
    publish path (t :: tables) = Framing.frame header (tablePayload path t) ++ publish path tables := rfl

theorem Publishable.parsed (publishable : Publishable path parseURL t) (unicode : UnicodeLower lower) :
    Config.parse lower parseURL (tablePayload path t) none = .ok (t : Published K) :=
  (Config.parse_write_iff unicode publishable.writable publishable.short).mpr
    (Config.parseLines_table unicode publishable.writable publishable.within)

/-- A table that arrives is handed to the manager, which takes it unless it panics. -/
theorem Handed.published (unicode : UnicodeLower lower) {t : Published K} (publishable : Publishable path parseURL t)
    (handed : Handed lower parseURL (updater lower provider answers) (tablePayload path t) state after result)
    (survives : result ≠ .crashed) :
    result = .applied ∧
      (Proxy.machine (Strings.toLower lower) provider).Run state.1 [.setRoutes (answers state.2) t.1 t.2] after.1 := by
  have parsed := publishable.parsed unicode
  have called := handed.applyConfig_eq
  rcases Proxy.setRoutes_cases (Strings.toLower lower) provider (answers state.2) t.1 t.2 state.1 with
    ⟨s,done⟩ | ⟨s,message,invalid,_⟩ | ⟨s,loaded,domains,_,_,_,done⟩
  · have crashed : CallResult.crashed = result := by
      simpa [applyConfig,parsed,updater,done] using congrArg Prod.snd called
    exact absurd crashed.symm survives
  · exact absurd publishable.valid invalid
  · have applied : ((⟨s,⟨loaded,domains,t.2⟩⟩,state.2 + 1),CallResult.applied) = (after,result) := by
      simpa [applyConfig,parsed,updater,done] using called
    obtain ⟨rfl,rfl⟩ := Prod.mk.inj applied
    have enabled : (Proxy.machine (Strings.toLower lower) provider).Enabled state.1
        (.setRoutes (answers state.2) t.1 t.2) := by
      simp [Proxy.machine,Proxy.call,done]
    have next : (Proxy.machine (Strings.toLower lower) provider).next state.1
        (.setRoutes (answers state.2) t.1 t.2) = ⟨s,⟨loaded,domains,t.2⟩⟩ := congrArg Prod.fst done
    exact ⟨rfl,next ▸ .cons enabled .nil⟩

/-- A stream of whole frames never looks malformed. -/
theorem Malformed.not_front (malformed : Malformed err bad) :
    bad ++ rest ≠ Framing.frame header payload ++ tail := by
  intro same
  cases malformed with
  | magic got eight other =>
    have start := congrArg (List.take 8) same
    rw [List.take_left' eight] at start
    refine other (start.trans ?_)
    simp [Framing.frame,header,magicBytes]
  | version got four other =>
    have start := congrArg (List.take 12) same
    rw [List.take_left' (by simp [magicBytes,four])] at start
    have front : List.take 12 (Framing.frame header payload ++ tail) = magicBytes ++ protocolVersion := by
      simp [Framing.frame,header,magicBytes,protocolVersion]
    exact other (List.append_cancel_left (start.trans front))

/-- If nothing is handed on, there is no whole table. -/
theorem Whole.none {update : RouteUpdater P K}
    (called : readAndApplyConfig lower parseURL update conn state = ⟨left,after,none,result⟩) :
    Whole path parseURL conn.bytes ([] : List (Published K)) := by
  refine ⟨List.nil_prefix,fun t publishable front => ?_⟩
  obtain ⟨tail,split⟩ := front
  have framed : conn.bytes = Framing.frame header (tablePayload path t) ++ tail := by
    simpa [publish] using split.symm
  obtain ⟨_,_,_,_,_,handed⟩ := call_framed lower parseURL update framed publishable.bound state
  rw [called] at handed
  cases handed

theorem Whole.cons (whole : Whole path parseURL stream tables) (t : Published K) :
    Whole path parseURL (Framing.frame header (tablePayload path t) ++ stream) (t :: tables) := by
  refine ⟨(List.prefix_append_right_inj _).mpr whole.front,fun t' publishable front => ?_⟩
  rw [List.cons_append,publish_cons] at front
  exact whole.longest t' publishable ((List.prefix_append_right_inj _).mp front)

variable (lower parseURL path provider) in
/-- The session hands on what is there as a whole, and the manager is called with it, one table
after the other. -/
def Installs (stream : List UInt8) (proxy : Proxy S K) (s : Session (Proxy S K × Nat)) : Prop :=
  ∃ whole trace, Whole path parseURL stream whole ∧ s.handed = whole.map (tablePayload path) ∧
    (Proxy.machine (Strings.toLower lower) provider).Run proxy trace s.proxy.1 ∧
    trace.filterMap ProxyCall.accepted = whole

theorem Installs.stopped
    (called : readAndApplyConfig lower parseURL (updater lower provider answers) conn state =
      ⟨left,state,none,.failed err⟩) (enough : conn.bytes.length < fuel) :
    Installs lower parseURL path provider conn.bytes state.1
      (calls lower parseURL (updater lower provider answers) fuel conn state) := by
  rw [calls_stopped called (by simp) enough]
  exact ⟨[],[],.none called,rfl,.nil,rfl⟩

/-- A table that has arrived is applied before those after it. -/
theorem Installs.applied {conn left : Conn} {state after : Proxy S K × Nat} {t : Published K} (publishable : Publishable path parseURL t)
    (split : conn.bytes = Framing.frame header (tablePayload path t) ++ left.bytes)
    (first : (Proxy.machine (Strings.toLower lower) provider).Run state.1 [.setRoutes (answers state.2) t.1 t.2] after.1)
    (installs : Installs lower parseURL path provider left.bytes after.1 later) :
    Installs lower parseURL path provider conn.bytes state.1
      { later with handed := tablePayload path t :: later.handed,applied := true } := by
  obtain ⟨whole,trace,arrived,handed,run,accepted⟩ := installs
  rw [split]
  refine ⟨t :: whole,_,arrived.cons t,?_,first.append run,?_⟩
  · simp [handed]
  · simp [ProxyCall.accepted,publishable.valid,accepted]

/-- The calls on a connection that breaks off somewhere. -/
theorem calls_published (unicode : UnicodeLower lower) {tables : List (Published K)}
    (publishable : ∀ t ∈ tables, Publishable path parseURL t) (enough : conn.bytes.length < fuel)
    (cut : conn.bytes <+: publish path tables) {state : Proxy S K × Nat}
    (survives : (calls lower parseURL (updater lower provider answers) fuel conn state).result ≠ .crashed) :
    Installs lower parseURL path provider conn.bytes state.1
      (calls lower parseURL (updater lower provider answers) fuel conn state) := by
  induction tables generalizing conn fuel state with
  | nil =>
    have none : conn.bytes = [] := List.prefix_nil.mp cut
    have truncated : Truncated conn.bytes := none ▸ Truncated.magic [] (by decide)
    obtain ⟨left,what,why,_,called⟩ := call_truncated lower parseURL (updater lower provider answers) truncated state
    exact .stopped called enough
  | cons t tables ih =>
    obtain ⟨here,others⟩ := List.forall_mem_cons.mp publishable
    obtain ⟨rest,sent⟩ := cut
    have cases := call_cases lower parseURL (updater lower provider answers) conn state
    generalize called : readAndApplyConfig lower parseURL (updater lower provider answers) conn state = call at cases
    cases cases with
    | @framed after result payload left bound split handed =>
      rw [split,publish_cons,List.append_assoc] at sent
      obtain ⟨rfl,same⟩ := Framing.frame_append_inj bound here.bound sent
      have calm : result ≠ .crashed := by
        rintro rfl
        rw [calls_stopped called (by simp) enough] at survives
        exact survives rfl
      obtain ⟨rfl,first⟩ := handed.published unicode here calm
      rw [calls_applied called enough] at survives ⊢
      exact .applied here split first (ih others (shorter_of_framed split enough) ⟨rest,same⟩ survives)
    | malformed err bad left malformed split =>
      rw [split,publish_cons,List.append_assoc] at sent
      exact absurd sent malformed.not_front
    | truncated what why left truncated _ => exact .stopped called enough

variable (parseURL path) in
def Publishes (K : Type) (dials : List (Except String Conn)) : Prop :=
  ∀ dialled, .ok dialled ∈ dials → ∃ tables : List (Published K),
    (∀ t ∈ tables, Publishable path parseURL t) ∧ dialled.bytes <+: publish path tables

theorem session_installs (unicode : UnicodeLower lower) (published : Publishes parseURL path K (.ok conn :: dials))
    {state : Proxy S K × Nat}
    (survives : (session lower parseURL (updater lower provider answers) conn state).result ≠ .crashed) :
    Installs lower parseURL path provider conn.bytes state.1
      (session lower parseURL (updater lower provider answers) conn state) := by
  obtain ⟨tables,each,cut⟩ := published conn List.mem_cons_self
  exact calls_published unicode each (Nat.lt_succ_self _) cut survives

variable (lower parseURL path provider) in
/-- Of every connection that was read the whole tables have arrived, and the manager was called
with all of them in turn. -/
def Delivers (conns : List Conn) (proxy : Proxy S K) (handed : List (List (List UInt8))) (after : Proxy S K) : Prop :=
  ∃ (arrived : List (List (Published K))) (trace : List (ProxyCall A K)),
    handed = arrived.map (List.map (tablePayload path)) ∧
    List.Forall₂ (fun conn whole => Whole path parseURL conn.bytes whole) conns arrived ∧
    (Proxy.machine (Strings.toLower lower) provider).Run proxy trace after ∧
    trace.filterMap ProxyCall.accepted = arrived.flatten

theorem Installs.delivers {s : Session (Proxy S K × Nat)}
    (installs : Installs lower parseURL path provider conn.bytes proxy s)
    (later : Delivers lower parseURL path provider conns s.proxy.1 handed after) :
    Delivers lower parseURL path provider (conn :: conns) proxy (s.handed :: handed) after := by
  obtain ⟨whole,trace,arrived,given,run,accepted⟩ := installs
  obtain ⟨others,more,given',arrived',run',accepted'⟩ := later
  exact ⟨whole :: others,trace ++ more,by simp [given,given'],.cons arrived arrived',run.append run',
    by simp [accepted,accepted']⟩

/-- What all connections of a run have delivered. -/
theorem Sessions.delivers (unicode : UnicodeLower lower) {state after : Proxy S K × Nat}
    (sessions : Sessions lower parseURL (updater lower provider answers) conns state handed after result)
    (published : Publishes parseURL path K (conns.map .ok)) (survives : result ≠ .crashed) :
    Delivers lower parseURL path provider conns state.1 handed after.1 := by
  induction sessions with
  | last => exact (session_installs unicode published survives).delivers ⟨[],[],rfl,.nil,.nil,rfl⟩
  | next failed _ ih =>
    refine (session_installs unicode published (by simp [failed])).delivers (ih ?_ survives)
    exact fun dialled member => published dialled (List.mem_cons_of_mem _ member)

/-- Whatever breaks off and is dialled again, the manager has been given the tables that arrived as a
whole and nothing else, in the order of their arrival, and the last of them decides every lookup. -/
theorem published_in_force (unicode : UnicodeLower lower) (parseURL : String → Option (String × String))
    (path : ErrorMapping → String) (provider : Option (CertificateProvider S A K))
    (answers : Nat → Nat → A) (quote : List UInt8 → String) (dials : List (Except String Conn)) (secondChance : Bool)
    (conn : Conn) (start : S) (published : Publishes parseURL path K (.ok conn :: dials)) :
    let report := run lower parseURL (updater lower provider answers) quote dials secondChance conn (⟨start,.empty⟩,0)
    report.result ≠ .crashed → ∃ (conns : List Conn) (arrived : List (List (Published K))),
      conns.map .ok <+: .ok conn :: dials ∧
      List.Forall₂ (fun conn whole => Whole path parseURL conn.bytes whole) conns arrived ∧
      report.handed = arrived.map (List.map (tablePayload path)) ∧
      report.proxy.1.table.Decided (Strings.toLower lower) (arrived.flatten.getLastD ([],none)) := by
  intro report survives
  obtain ⟨conns,dialled,sessions⟩ := run_sessions lower parseURL (updater lower provider answers) quote dials
    secondChance conn (⟨start,.empty⟩,0)
  have read : Publishes parseURL path K (conns.map .ok) :=
    fun conn member => published conn (dialled.subset member)
  obtain ⟨arrived,trace,handed,whole,run,accepted⟩ := sessions.delivers unicode read survives
  have holds := Proxy.run_holds run
  rw [lastAccepted,accepted] at holds
  exact ⟨conns,arrived,dialled,whole,handed,holds.decided unicode (Proxy.run_installed run)⟩

end Centauri.NetworkSource

namespace Centauri.Sample

def writtenTable : NetworkSource.Published Unit := (writtenRoutes,some 1)

theorem writtenTable_publishable : NetworkSource.Publishable pagePath pageURL writtenTable :=
  ⟨writtenRoutes_writable,by simp [writtenTable,writtenRoutes],by decide +kernel,by decide +kernel,by decide +kernel⟩

def sentTable : List UInt8 := NetworkSource.publish pagePath [writtenTable]

def brokenOff : NetworkSource.Conn := ⟨[sentTable.take 40],some "connection reset"⟩

def redialled : NetworkSource.Conn := ⟨[sentTable.take 40,sentTable.drop 40],none⟩

def inStore : CertificateProvider Unit Bool Unit where
  getCertificate _ _ _ _ s := (s,.err "no reply")
  getExistingCertificate stored _ _ _ s :=
    (s,if stored then .found ⟨(),[]⟩ false else .missing true "no stored certificate found")

theorem redialled_in_force :
    let report := NetworkSource.run Char.toLower pageURL (NetworkSource.updater Char.toLower (some inStore)
      fun _ route => route == 0) (fun _ => "") [.ok redialled] false brokenOff (⟨(),.empty⟩,0)
    ∃ arrived : List (List (NetworkSource.Published Unit)),
      report.handed = arrived.map (List.map (NetworkSource.tablePayload pagePath)) ∧
      report.proxy.1.table.Decided (Strings.toLower Char.toLower) (arrived.flatten.getLastD ([],none)) := by
  have published : NetworkSource.Publishes pageURL pagePath Unit [.ok brokenOff,.ok redialled] := by
    intro dialled member
    refine ⟨[writtenTable],by simpa using writtenTable_publishable,?_⟩
    change dialled.bytes <+: sentTable
    rcases List.mem_cons.mp member with same | member
    · cases same
      simpa [brokenOff,NetworkSource.Conn.bytes] using List.take_prefix 40 sentTable
    · cases List.mem_singleton.mp member
      simp [redialled,NetworkSource.Conn.bytes]
  obtain ⟨_,arrived,_,_,handed,decided⟩ := NetworkSource.published_in_force .toLower pageURL pagePath (some inStore)
    (fun _ route => route == 0) (fun _ => "") [.ok redialled] false brokenOff () published (by decide +kernel)
  exact ⟨arrived,handed,decided⟩

end Centauri.Sample
