import Centauri.FileSource
import Centauri.Framing

/-! Configurations from the network: what one connection delivers, and the loop that gives a
lost connection a second chance. -/
namespace Centauri

namespace NetworkSource

def magicBytes : List UInt8 := [0x43,0x45,0x4E,0x54,0x41,0x55,0x52,0x49]

def protocolVersion : List UInt8 := [0x00,0x00,0x00,0x01]

def header : List UInt8 := magicBytes ++ protocolVersion

inductive NetworkError where
  | read (what why : String)
  | invalidMagic (got : List UInt8)
  | unsupportedVersion (got : List UInt8)
  | parse (why : String)
  | update (why : String)
  deriving DecidableEq, Repr

/-- `quote` is `%q`. -/
def NetworkError.message (quote : List UInt8 → String) : NetworkError → String
  | .read what why => "failed to read " ++ what ++ ": " ++ why
  | .invalidMagic got => "invalid magic bytes: got " ++ quote got ++ ", expected " ++ quote magicBytes
  | .unsupportedVersion got =>
    "unsupported protocol version: [" ++ " ".intercalate (got.map fun b => toString b.toNat) ++ "]"
  | .parse why => "failed to parse config: " ++ why
  | .update why => "route manager error: " ++ why

/-- A connection: the chunks that are still to arrive, and the error that reads meet after
them, `none` for the end of the stream. -/
structure Conn where
  chunks : List (List UInt8)
  ending : Option String
  deriving DecidableEq, Repr

namespace Conn

def bytes (conn : Conn) : List UInt8 := conn.chunks.flatten

def exhausted (conn : Conn) : Conn := { conn with chunks := [] }

def failure (conn : Conn) : String :=
  match conn.ending with
  | some err => err
  | none => if conn.bytes.isEmpty then "EOF" else "unexpected EOF"

end Conn

inductive CallResult where
  | applied
  | failed (err : NetworkError)
  | crashed
  deriving DecidableEq, Repr

/-- What a call of `readAndApplyConfig` leaves, with the payload that it handed to
`Parse`. -/
structure Call (P : Type) where
  conn : Conn
  proxy : P
  handed : Option (List UInt8)
  result : CallResult

variable {P K : Type} (lower : Char → Char) (parseURL : String → Option (String × String))
  (updateRoutes : RouteUpdater P K)

def applyConfig (payload : List UInt8) (proxy : P) : P × CallResult :=
  match (Config.parse lower parseURL payload none : Except String (List (Route K) × Option Nat)) with
  | .error err => (proxy,.failed (.parse err))
  | .ok (routes,fallback) =>
    match updateRoutes routes fallback proxy with
    | (proxy,.ok _) => (proxy,.applied)
    | (proxy,.err err) => (proxy,.failed (.update err))
    | (proxy,.crashed) => (proxy,.crashed)

def readThen (n : Nat) (what : String) (conn : Conn) (proxy : P)
    (next : List UInt8 → Conn → Call P) : Call P :=
  match Framing.readFull n conn.chunks with
  | none => ⟨conn.exhausted,proxy,none,.failed (.read what conn.failure)⟩
  | some (bytes,left) => next bytes { conn with chunks := left }

def readPayload (proxy : P) (lengthBytes : List UInt8) (conn : Conn) : Call P :=
  readThen (Framing.uint32 lengthBytes) "payload" conn proxy fun payload conn =>
    let (proxy,result) := applyConfig lower parseURL updateRoutes payload proxy
    ⟨conn,proxy,some payload,result⟩

def checkVersion (proxy : P) (versionHeader : List UInt8) (conn : Conn) : Call P :=
  if versionHeader ≠ protocolVersion then ⟨conn,proxy,none,.failed (.unsupportedVersion versionHeader)⟩
  else readThen 4 "payload length" conn proxy (readPayload lower parseURL updateRoutes proxy)

def checkMagic (proxy : P) (magic : List UInt8) (conn : Conn) : Call P :=
  if magic ≠ magicBytes then ⟨conn,proxy,none,.failed (.invalidMagic magic)⟩
  else readThen 4 "version header" conn proxy (checkVersion lower parseURL updateRoutes proxy)

/-- The function is cut after each of its reads. -/
def readAndApplyConfig (conn : Conn) (proxy : P) : Call P :=
  readThen 8 "magic bytes" conn proxy (checkMagic lower parseURL updateRoutes proxy)

/-- What the calls on one connection leave, up to the first that fails. `applied` says
whether one before it did not. -/
structure Session (P : Type) where
  conn : Conn
  proxy : P
  handed : List (List UInt8)
  applied : Bool
  result : CallResult

def calls : Nat → Conn → P → Session P
  | 0, conn, proxy => ⟨conn,proxy,[],false,.applied⟩
  | fuel + 1, conn, proxy =>
    let call := readAndApplyConfig lower parseURL updateRoutes conn proxy
    match call.result with
    | .applied =>
      let later := calls fuel call.conn call.proxy
      { later with handed := call.handed.toList ++ later.handed,applied := true }
    | result => ⟨call.conn,call.proxy,call.handed.toList,false,result⟩

/-- A call that succeeds takes bytes off the stream, so there are fewer of them than
bytes. -/
def session (conn : Conn) (proxy : P) : Session P :=
  calls lower parseURL updateRoutes (conn.bytes.length + 1) conn proxy

/-- What `run` leaves: the payloads of each connection it read from, the result of the last read,
and the error it sent to `errChan`. -/
structure Report (P : Type) where
  proxy : P
  handed : List (List (List UInt8))
  result : CallResult
  error : Option String

def verdict (quote : List UInt8 → String) (secondChance : Bool) (s : Session P) :
    Except (Option String) Unit :=
  match s.result with
  | .failed err =>
    if secondChance && !s.applied then
      .error (some ("failed to read config after reconnection: " ++ err.message quote))
    else .ok ()
  | _ => .error none

/-- `run` from a connection on. The list holds the answers of `net.Dial`; without one the
loop waits. -/
def run (quote : List UInt8 → String) : List (Except String Conn) → Bool → Conn → P → Report P
  | [], secondChance, conn, proxy =>
    let s := session lower parseURL updateRoutes conn proxy
    match verdict quote secondChance s with
    | .error err => ⟨s.proxy,[s.handed],s.result,err⟩
    | .ok _ => ⟨s.proxy,[s.handed],s.result,none⟩
  | dial :: dials, secondChance, conn, proxy =>
    let s := session lower parseURL updateRoutes conn proxy
    match verdict quote secondChance s with
    | .error err => ⟨s.proxy,[s.handed],s.result,err⟩
    | .ok _ =>
      match dial with
      | .error err => ⟨s.proxy,[s.handed],s.result,some ("failed to reconnect to config server: " ++ err)⟩
      | .ok conn =>
        let later := run quote dials true conn s.proxy
        { later with handed := s.handed :: later.handed }

variable {lower parseURL updateRoutes}

theorem readThen_enough (enough : n ≤ conn.bytes.length) (what : String) (proxy : P)
    (next : List UInt8 → Conn → Call P) :
    ∃ left, left.bytes = conn.bytes.drop n ∧
      readThen n what conn proxy next = next (conn.bytes.take n) left := by
  rcases Framing.readFull_spec n conn.chunks with ⟨_,left,read,remains⟩ | ⟨short,_⟩
  · exact ⟨{ conn with chunks := left },remains,by rw [readThen,read]; rfl⟩
  · exact absurd enough (Nat.not_le.mpr short)

theorem readThen_short (short : conn.bytes.length < n) (what : String) (proxy : P)
    (next : List UInt8 → Conn → Call P) :
    readThen n what conn proxy next = ⟨conn.exhausted,proxy,none,.failed (.read what conn.failure)⟩ := by
  rcases Framing.readFull_spec n conn.chunks with ⟨enough,_⟩ | ⟨_,none⟩
  · exact absurd short (Nat.not_lt.mpr enough)
  · rw [readThen,none]

inductive Malformed : NetworkError → List UInt8 → Prop where
  | magic (got : List UInt8) : got.length = 8 → got ≠ magicBytes → Malformed (.invalidMagic got) got
  | version (got : List UInt8) : got.length = 4 → got ≠ protocolVersion →
      Malformed (.unsupportedVersion got) (magicBytes ++ got)

inductive Truncated : List UInt8 → Prop where
  | magic (rest : List UInt8) : rest.length < 8 → Truncated rest
  | version (rest : List UInt8) : rest.length < 4 → Truncated (magicBytes ++ rest)
  | length (rest : List UInt8) : rest.length < 4 → Truncated (header ++ rest)
  | payload (length rest : List UInt8) : length.length = 4 → rest.length < Framing.uint32 length →
      Truncated (header ++ (length ++ rest))

inductive Front : List UInt8 → Prop where
  | framed (payload tail : List UInt8) : payload.length < 2 ^ 32 → Front (Framing.frame header payload ++ tail)
  | malformed (err : NetworkError) (bad tail : List UInt8) : Malformed err bad → Front (bad ++ tail)
  | truncated (stream : List UInt8) : Truncated stream → Front stream

theorem exists_append (enough : n ≤ stream.length) :
    ∃ bytes tail : List UInt8, stream = bytes ++ tail ∧ bytes.length = n :=
  ⟨stream.take n,stream.drop n,(List.take_append_drop n stream).symm,List.length_take_of_le enough⟩

theorem front (stream : List UInt8) : Front stream := by
  by_cases short : stream.length < 8
  · exact .truncated stream (.magic stream short)
  obtain ⟨magic,stream,rfl,eight⟩ := exists_append (Nat.not_lt.mp short)
  by_cases known : magic = magicBytes
  case neg => exact .malformed _ magic stream (.magic magic eight known)
  subst known
  by_cases short : stream.length < 4
  · exact .truncated _ (.version stream short)
  obtain ⟨version,stream,rfl,four⟩ := exists_append (Nat.not_lt.mp short)
  rw [← List.append_assoc]
  by_cases known : version = protocolVersion
  case neg => exact .malformed _ _ stream (.version version four known)
  subst known
  by_cases short : stream.length < 4
  · exact .truncated _ (.length stream short)
  obtain ⟨length,stream,rfl,four⟩ := exists_append (Nat.not_lt.mp short)
  by_cases short : stream.length < Framing.uint32 length
  · exact .truncated _ (.payload length stream four short)
  obtain ⟨payload,stream,rfl,whole⟩ := exists_append (Nat.not_lt.mp short)
  have framed : header ++ (length ++ (payload ++ stream)) = Framing.frame header payload ++ stream := by
    rw [Framing.frame,whole,Framing.putUint32_uint32 four]
    simp only [List.append_assoc]
  rw [show magicBytes ++ protocolVersion = header from rfl,framed]
  exact .framed payload stream (whole ▸ Framing.uint32_lt four)

/-- A read of what stands at the front. -/
theorem readThen_append (split : conn.bytes = bytes ++ tail) (whole : bytes.length = n) (what : String)
    (proxy : P) (next : List UInt8 → Conn → Call P) :
    ∃ left, left.bytes = tail ∧ readThen n what conn proxy next = next bytes left := by
  subst whole
  have enough : bytes.length ≤ conn.bytes.length := by
    rw [split,List.length_append]
    omega
  obtain ⟨left,remains,read⟩ := readThen_enough enough what proxy next
  rw [split,List.drop_left] at remains
  rw [split,List.take_left] at read
  exact ⟨left,remains,read⟩

section Handing

variable (lower parseURL updateRoutes)

/-- The payload is handed to `Parse`, and what `Parse` reads from it to the updater. -/
inductive Handed (payload : List UInt8) (proxy : P) : P → CallResult → Prop where
  | unparsed : Config.parse lower parseURL payload none = (.error err : Except String (List (Route K) × Option Nat)) →
      Handed payload proxy proxy (.failed (.parse err))
  | applied : Config.parse lower parseURL payload none = .ok (routes,fallback) →
      updateRoutes routes fallback proxy = (after,.ok done) → Handed payload proxy after .applied
  | refused : Config.parse lower parseURL payload none = .ok (routes,fallback) →
      updateRoutes routes fallback proxy = (after,.err err) → Handed payload proxy after (.failed (.update err))
  | crashed : Config.parse lower parseURL payload none = .ok (routes,fallback) →
      updateRoutes routes fallback proxy = (after,.crashed) → Handed payload proxy after .crashed

theorem applyConfig_handed (payload : List UInt8) (proxy : P) :
    Handed lower parseURL updateRoutes payload proxy (applyConfig lower parseURL updateRoutes payload proxy).1
      (applyConfig lower parseURL updateRoutes payload proxy).2 := by
  unfold applyConfig
  cases parsed : (Config.parse lower parseURL payload none : Except String (List (Route K) × Option Nat)) with
  | error err => exact .unparsed parsed
  | ok read =>
    obtain ⟨routes,fallback⟩ := read
    cases updated : updateRoutes routes fallback proxy with
    | mk after outcome =>
      cases outcome with
      | ok done => simpa only [updated] using Handed.applied parsed updated
      | err why => simpa only [updated] using Handed.refused parsed updated
      | crashed => simpa only [updated] using Handed.crashed parsed updated

variable {lower parseURL updateRoutes}

theorem Handed.applyConfig_eq (handed : Handed lower parseURL updateRoutes payload proxy after result) :
    applyConfig lower parseURL updateRoutes payload proxy = (after,result) := by
  cases handed with
  | unparsed parsed => simp only [applyConfig,parsed]
  | applied parsed updated => simp only [applyConfig,parsed,updated]
  | refused parsed updated => simp only [applyConfig,parsed,updated]
  | crashed parsed updated => simp only [applyConfig,parsed,updated]

/-- There is one way to hand a payload on. -/
theorem Handed.unique (handed : Handed lower parseURL updateRoutes payload proxy after result)
    (other : Handed lower parseURL updateRoutes payload proxy after' result') : after' = after ∧ result' = result :=
  Prod.mk.inj (other.applyConfig_eq.symm.trans handed.applyConfig_eq)

end Handing

section Calls

variable (lower parseURL updateRoutes)

theorem call_magic (split : conn.bytes = magicBytes ++ stream) (proxy : P) :
    ∃ left, left.bytes = stream ∧
      readAndApplyConfig lower parseURL updateRoutes conn proxy =
        readThen 4 "version header" left proxy (checkVersion lower parseURL updateRoutes proxy) := by
  obtain ⟨left,remains,read⟩ := readThen_append split rfl "magic bytes" proxy
    (checkMagic lower parseURL updateRoutes proxy)
  exact ⟨left,remains,read.trans (if_neg (not_not.mpr rfl))⟩

theorem call_header (split : conn.bytes = header ++ stream) (proxy : P) :
    ∃ left, left.bytes = stream ∧
      readAndApplyConfig lower parseURL updateRoutes conn proxy =
        readThen 4 "payload length" left proxy (readPayload lower parseURL updateRoutes proxy) := by
  rw [header,List.append_assoc] at split
  obtain ⟨middle,remains,read⟩ := call_magic lower parseURL updateRoutes split proxy
  obtain ⟨left,remains',read'⟩ := readThen_append remains rfl "version header" proxy
    (checkVersion lower parseURL updateRoutes proxy)
  exact ⟨left,remains',read.trans (read'.trans (if_neg (not_not.mpr rfl)))⟩

theorem call_length (split : conn.bytes = header ++ (length ++ stream)) (four : length.length = 4) (proxy : P) :
    ∃ left, left.bytes = stream ∧
      readAndApplyConfig lower parseURL updateRoutes conn proxy =
        readPayload lower parseURL updateRoutes proxy length left := by
  obtain ⟨middle,remains,read⟩ := call_header lower parseURL updateRoutes split proxy
  obtain ⟨left,remains',read'⟩ := readThen_append remains four "payload length" proxy
    (readPayload lower parseURL updateRoutes proxy)
  exact ⟨left,remains',read.trans read'⟩

/-- A frame is handed on, and what follows it is left. -/
theorem call_framed (split : conn.bytes = Framing.frame header payload ++ tail) (bound : payload.length < 2 ^ 32)
    (proxy : P) : ∃ left after result, left.bytes = tail ∧
      Handed lower parseURL updateRoutes payload proxy after result ∧
      readAndApplyConfig lower parseURL updateRoutes conn proxy = ⟨left,after,some payload,result⟩ := by
  rw [Framing.frame,List.append_assoc,List.append_assoc] at split
  obtain ⟨middle,remains,read⟩ := call_length lower parseURL updateRoutes split rfl proxy
  obtain ⟨left,remains',read'⟩ := readThen_append remains (Framing.uint32_putUint32 bound).symm "payload" proxy
    fun payload conn =>
      let (proxy,result) := applyConfig lower parseURL updateRoutes payload proxy
      ⟨conn,proxy,some payload,result⟩
  exact ⟨left,_,_,remains',applyConfig_handed lower parseURL updateRoutes payload proxy,read.trans read'⟩

/-- A frame with another magic or version is refused, and what follows its header is left. -/
theorem call_malformed (split : conn.bytes = bad ++ tail) (malformed : Malformed err bad) (proxy : P) :
    ∃ left, left.bytes = tail ∧
      readAndApplyConfig lower parseURL updateRoutes conn proxy = ⟨left,proxy,none,.failed err⟩ := by
  cases malformed with
  | magic _ eight other =>
    obtain ⟨left,remains,read⟩ := readThen_append split eight "magic bytes" proxy
      (checkMagic lower parseURL updateRoutes proxy)
    exact ⟨left,remains,read.trans (if_pos other)⟩
  | version got four other =>
    rw [List.append_assoc] at split
    obtain ⟨middle,remains,read⟩ := call_magic lower parseURL updateRoutes split proxy
    obtain ⟨left,remains',read'⟩ := readThen_append remains four "version header" proxy
      (checkVersion lower parseURL updateRoutes proxy)
    exact ⟨left,remains',read.trans (read'.trans (if_pos other))⟩

/-- A truncated frame is an error too, and nothing is left. -/
theorem call_truncated (truncated : Truncated conn.bytes) (proxy : P) : ∃ left what why, left.bytes = [] ∧
    readAndApplyConfig lower parseURL updateRoutes conn proxy = ⟨left,proxy,none,.failed (.read what why)⟩ := by
  generalize eq : conn.bytes = stream at truncated
  cases truncated with
  | magic _ short => exact ⟨conn.exhausted,_,_,rfl,readThen_short (eq ▸ short) _ _ _⟩
  | version rest short =>
    obtain ⟨left,remains,read⟩ := call_magic lower parseURL updateRoutes eq proxy
    exact ⟨left.exhausted,_,_,rfl,read.trans (readThen_short (remains ▸ short) _ _ _)⟩
  | length rest short =>
    obtain ⟨left,remains,read⟩ := call_header lower parseURL updateRoutes eq proxy
    exact ⟨left.exhausted,_,_,rfl,read.trans (readThen_short (remains ▸ short) _ _ _)⟩
  | payload length rest four short =>
    obtain ⟨left,remains,read⟩ := call_length lower parseURL updateRoutes eq four proxy
    exact ⟨left.exhausted,_,_,rfl,read.trans (readThen_short (remains ▸ short) _ _ _)⟩

inductive CallCases (conn : Conn) (proxy : P) : Call P → Prop where
  | framed (payload : List UInt8) (left : Conn) : payload.length < 2 ^ 32 →
      conn.bytes = Framing.frame header payload ++ left.bytes →
      Handed lower parseURL updateRoutes payload proxy after result →
      CallCases conn proxy ⟨left,after,some payload,result⟩
  | malformed (err : NetworkError) (bad : List UInt8) (left : Conn) : Malformed err bad →
      conn.bytes = bad ++ left.bytes → CallCases conn proxy ⟨left,proxy,none,.failed err⟩
  | truncated (what why : String) (left : Conn) : Truncated conn.bytes → left.bytes = [] →
      CallCases conn proxy ⟨left,proxy,none,.failed (.read what why)⟩

theorem call_cases (conn : Conn) (proxy : P) : CallCases lower parseURL updateRoutes conn proxy
    (readAndApplyConfig lower parseURL updateRoutes conn proxy) := by
  generalize eq : conn.bytes = stream
  cases front stream with
  | framed payload tail bound =>
    obtain ⟨left,after,result,rfl,handed,call⟩ := call_framed lower parseURL updateRoutes eq bound proxy
    exact call ▸ .framed payload left bound eq handed
  | malformed err bad tail malformed =>
    obtain ⟨left,rfl,call⟩ := call_malformed lower parseURL updateRoutes eq malformed proxy
    exact call ▸ .malformed err bad left malformed eq
  | truncated _ truncated =>
    obtain ⟨left,what,why,none,call⟩ := call_truncated lower parseURL updateRoutes (eq ▸ truncated) proxy
    exact call ▸ .truncated what why left (eq ▸ truncated) none

end Calls

theorem calls_applied
    (call : readAndApplyConfig lower parseURL updateRoutes conn proxy = ⟨left,after,handed,.applied⟩)
    (enough : n < fuel) :
    calls lower parseURL updateRoutes fuel conn proxy =
      { calls lower parseURL updateRoutes (fuel - 1) left after with
        handed := handed.toList ++ (calls lower parseURL updateRoutes (fuel - 1) left after).handed,applied := true } := by
  obtain ⟨fuel,rfl⟩ := Nat.exists_eq_add_one.mpr (Nat.zero_lt_of_lt enough)
  rw [calls,call]
  rfl

theorem calls_stopped
    (call : readAndApplyConfig lower parseURL updateRoutes conn proxy = ⟨left,after,handed,result⟩)
    (stopped : result ≠ .applied) (enough : n < fuel) :
    calls lower parseURL updateRoutes fuel conn proxy = ⟨left,after,handed.toList,false,result⟩ := by
  obtain ⟨fuel,rfl⟩ := Nat.exists_eq_add_one.mpr (Nat.zero_lt_of_lt enough)
  rw [calls,call]
  cases result with
  | applied => exact absurd rfl stopped
  | failed err => rfl
  | crashed => rfl

/-- A frame read leaves bytes for one call fewer. -/
theorem shorter_of_framed {conn left : Conn} (split : conn.bytes = Framing.frame header payload ++ left.bytes)
    (enough : conn.bytes.length < fuel) : left.bytes.length < fuel - 1 := by
  rw [split,List.length_append,Framing.length_frame] at enough
  omega

section Sessions

variable (lower parseURL updateRoutes)

/-- The payloads handed on, one after the other, up to the first that `Parse` or the updater
rejects. -/
inductive Delivered : List (List UInt8) → P → List (List UInt8) → P → Prop where
  | nil : Delivered [] proxy [] proxy
  | applied : Handed lower parseURL updateRoutes payload proxy middle .applied →
      Delivered payloads middle handed after → Delivered (payload :: payloads) proxy (payload :: handed) after
  | rejected : Handed lower parseURL updateRoutes payload proxy after result → result ≠ .applied →
      Delivered (payload :: payloads) proxy [payload] after

inductive Accepted : List (List UInt8) → P → Prop where
  | nil : Accepted [] proxy
  | cons : Handed lower parseURL updateRoutes payload proxy after .applied → Accepted payloads after →
      Accepted (payload :: payloads) proxy

variable {lower parseURL updateRoutes} in
theorem Delivered.accepted (delivered : Delivered lower parseURL updateRoutes payloads proxy handed after)
    (accepted : Accepted lower parseURL updateRoutes payloads proxy) : handed = payloads := by
  induction delivered with
  | nil => rfl
  | applied given _ ih =>
    cases accepted with
    | cons taken later =>
      obtain ⟨rfl,_⟩ := given.unique taken
      rw [ih later]
  | rejected given rejected =>
    cases accepted with
    | cons taken _ => exact absurd (given.unique taken).2.symm rejected

theorem calls_delivered (leading : Framing.Leading header conn.bytes payloads) (enough : conn.bytes.length < fuel)
    (proxy : P) : Delivered lower parseURL updateRoutes payloads proxy
      (calls lower parseURL updateRoutes fuel conn proxy).handed
      (calls lower parseURL updateRoutes fuel conn proxy).proxy := by
  -- On the payloads: each call takes the next one off the stream.
  induction payloads generalizing fuel conn proxy with
  | nil =>
    have cases := call_cases lower parseURL updateRoutes conn proxy
    generalize read : readAndApplyConfig lower parseURL updateRoutes conn proxy = call at cases
    cases cases with
    | framed payload left bound split _ => exact absurd split (leading.stuck bound)
    | malformed err bad left _ _ =>
      rw [calls_stopped read (by simp) enough]
      exact .nil
    | truncated what why left _ _ =>
      rw [calls_stopped read (by simp) enough]
      exact .nil
  | cons payload payloads ih =>
    obtain ⟨bound,tail,split,leading⟩ := leading.tail
    obtain ⟨left,after,result,rfl,handed,read⟩ := call_framed lower parseURL updateRoutes split bound proxy
    by_cases applied : result = .applied
    · subst applied
      rw [calls_applied read enough]
      exact .applied handed (ih leading (shorter_of_framed split enough) after)
    · rw [calls_stopped read applied enough]
      exact .rejected handed applied

/-- Why the calls on a connection end: by the payloads they handed on, the bytes read after the
last of them, and those left unread. -/
inductive Stop : List (List UInt8) → P → CallResult → List UInt8 → List UInt8 → Prop where
  | rejected (early : List (List UInt8)) (left : List UInt8) :
      Handed lower parseURL updateRoutes payload before after result → result ≠ .applied →
      Stop (early ++ [payload]) after result [] left
  | malformed (err : NetworkError) (bad left : List UInt8) : Malformed err bad →
      Stop handed after (.failed err) bad left
  | truncated (what why : String) (bad : List UInt8) : Truncated bad →
      Stop handed after (.failed (.read what why)) bad []

variable {lower parseURL updateRoutes} in
theorem Stop.cons (stop : Stop lower parseURL updateRoutes handed after result bad left) (payload : List UInt8) :
    Stop lower parseURL updateRoutes (payload :: handed) after result bad left := by
  cases stop with
  | rejected early _ handed rejected => exact .rejected (payload :: early) left handed rejected
  | malformed err _ _ malformed => exact .malformed err bad left malformed
  | truncated what why _ truncated => exact .truncated what why bad truncated

/-- What of a connection the calls read. Unless they met its end, the same bytes before any
others have the same effect. -/
structure Extent (conn : Conn) (proxy : P) (s : Session P) (bad : List UInt8) : Prop where
  eq : conn.bytes = Framing.frames header s.handed ++ (bad ++ s.conn.bytes)
  stop : Stop lower parseURL updateRoutes s.handed s.proxy s.result bad s.conn.bytes
  again : (∀ what why, s.result ≠ .failed (.read what why)) → ∀ fuel other tail, other.bytes.length < fuel →
    other.bytes = Framing.frames header s.handed ++ (bad ++ tail) →
    ∃ left, left.bytes = tail ∧ calls lower parseURL updateRoutes fuel other proxy = { s with conn := left }

theorem Extent.rejected (bound : payload.length < 2 ^ 32)
    (split : conn.bytes = Framing.frame header payload ++ left.bytes)
    (handed : Handed lower parseURL updateRoutes payload proxy after result) (rejected : result ≠ .applied) :
    Extent lower parseURL updateRoutes conn proxy ⟨left,after,[payload],false,result⟩ [] := by
  refine ⟨by simpa using split,.rejected [] _ handed rejected,fun _ fuel other tail enough eq => ?_⟩
  have split' : other.bytes = Framing.frame header payload ++ tail := by simpa using eq
  obtain ⟨left',_,_,remains,handed',read⟩ := call_framed lower parseURL updateRoutes split' bound proxy
  obtain ⟨rfl,rfl⟩ := handed.unique handed'
  exact ⟨left',remains,calls_stopped read rejected enough⟩

theorem Extent.malformed (malformed : Malformed err bad) (split : conn.bytes = bad ++ left.bytes) (proxy : P) :
    Extent lower parseURL updateRoutes conn proxy ⟨left,proxy,[],false,.failed err⟩ bad := by
  refine ⟨split,.malformed err bad _ malformed,fun _ fuel other tail enough eq => ?_⟩
  have split' : other.bytes = bad ++ tail := eq
  obtain ⟨left',remains,read⟩ := call_malformed lower parseURL updateRoutes split' malformed proxy
  exact ⟨left',remains,calls_stopped read (by simp) enough⟩

theorem Extent.applied (bound : payload.length < 2 ^ 32)
    (split : conn.bytes = Framing.frame header payload ++ left.bytes)
    (handed : Handed lower parseURL updateRoutes payload proxy after .applied)
    (extent : Extent lower parseURL updateRoutes left after later bad) :
    Extent lower parseURL updateRoutes conn proxy
      { later with handed := payload :: later.handed,applied := true } bad := by
  refine ⟨?_,extent.stop.cons payload,fun known fuel other tail enough eq => ?_⟩
  · rw [split,extent.eq,Framing.frames_cons,List.append_assoc]
  · rw [Framing.frames_cons,List.append_assoc] at eq
    obtain ⟨middle,_,_,remains,handed',read⟩ := call_framed lower parseURL updateRoutes eq bound proxy
    obtain ⟨rfl,rfl⟩ := handed.unique handed'
    have shorter := shorter_of_framed (remains ▸ eq) enough
    obtain ⟨left',remains',later'⟩ := extent.again known (fuel - 1) middle tail shorter remains
    exact ⟨left',remains',by rw [calls_applied read enough,later']; rfl⟩

theorem calls_extent (enough : conn.bytes.length < fuel) (proxy : P) :
    ∃ bad, Extent lower parseURL updateRoutes conn proxy (calls lower parseURL updateRoutes fuel conn proxy) bad := by
  induction fuel generalizing conn proxy with
  | zero => exact absurd enough (Nat.not_lt_zero _)
  | succ fuel ih =>
    have cases := call_cases lower parseURL updateRoutes conn proxy
    generalize read : readAndApplyConfig lower parseURL updateRoutes conn proxy = call at cases
    cases cases with
    | @framed after result payload left bound split handed =>
      by_cases applied : result = .applied
      · subst applied
        obtain ⟨bad,extent⟩ := ih (shorter_of_framed split enough) after
        exact ⟨bad,calls_applied read enough ▸ extent.applied lower parseURL updateRoutes bound split handed⟩
      · rw [calls_stopped read applied enough]
        exact ⟨[],.rejected lower parseURL updateRoutes bound split handed applied⟩
    | malformed err bad left malformed split =>
      exact ⟨bad,calls_stopped read (by simp) enough ▸ Extent.malformed lower parseURL updateRoutes malformed split proxy⟩
    | truncated what why left truncated none =>
      rw [calls_stopped read (by simp) enough]
      refine ⟨conn.bytes,by simp [none],none ▸ .truncated what why _ truncated,fun known => ?_⟩
      exact absurd rfl (known what why)

structure Decoded (conn : Conn) (proxy : P) (s : Session P) : Prop where
  handed : ∃ payloads, Framing.Leading header conn.bytes payloads ∧
    Delivered lower parseURL updateRoutes payloads proxy s.handed s.proxy
  extent : ∃ bad, Extent lower parseURL updateRoutes conn proxy s bad

theorem session_decoded (conn : Conn) (proxy : P) :
    Decoded lower parseURL updateRoutes conn proxy (session lower parseURL updateRoutes conn proxy) := by
  obtain ⟨payloads,leading⟩ := Framing.exists_leading header conn.bytes
  exact ⟨⟨payloads,leading,calls_delivered lower parseURL updateRoutes leading (Nat.lt_succ_self _) proxy⟩,
    calls_extent lower parseURL updateRoutes (Nat.lt_succ_self _) proxy⟩

theorem failed_of_verdict {s : Session P} (goes : verdict quote secondChance s = .ok done) :
    ∃ err, s.result = .failed err := by
  unfold verdict at goes
  split at goes
  next err failed => exact ⟨err,failed⟩
  next => cases goes

/-- Connections read one after the other, each after a read of the one before failed: what they
handed on, and the manager and the result after the last. -/
inductive Sessions : List Conn → P → List (List (List UInt8)) → P → CallResult → Prop where
  | last : Sessions [conn] proxy [(session lower parseURL updateRoutes conn proxy).handed]
      (session lower parseURL updateRoutes conn proxy).proxy (session lower parseURL updateRoutes conn proxy).result
  | next : (session lower parseURL updateRoutes conn proxy).result = .failed err →
      Sessions conns (session lower parseURL updateRoutes conn proxy).proxy handed after result →
      Sessions (conn :: conns) proxy ((session lower parseURL updateRoutes conn proxy).handed :: handed) after result

/-- After a session `run` ends or goes on with the next connection, never with the same. -/
theorem run_sessions (quote : List UInt8 → String) (dials : List (Except String Conn)) (secondChance : Bool)
    (conn : Conn) (proxy : P) :
    let report := run lower parseURL updateRoutes quote dials secondChance conn proxy
    ∃ conns, conns.map .ok <+: .ok conn :: dials ∧
      Sessions lower parseURL updateRoutes conns proxy report.handed report.proxy report.result := by
  have only (conn : Conn) (dials : List (Except String Conn)) : [conn].map .ok <+: .ok conn :: dials := by simp
  induction dials generalizing secondChance conn proxy with
  | nil =>
    unfold run
    dsimp only
    split
    · exact ⟨[conn],only conn [],.last⟩
    · exact ⟨[conn],only conn [],.last⟩
  | cons dial dials ih =>
    unfold run
    dsimp only
    split
    · exact ⟨[conn],only conn _,.last⟩
    next goes =>
      cases dial with
      | error err => exact ⟨[conn],only conn _,.last⟩
      | ok next =>
        obtain ⟨err,failed⟩ := failed_of_verdict goes
        obtain ⟨conns,dialled,later⟩ := ih true next (session lower parseURL updateRoutes conn proxy).proxy
        exact ⟨conn :: conns,(List.prefix_cons_inj _).mpr dialled,.next failed later⟩

/-- Every connection hands on its leading frames up to the first rejected one, `run` reads no
connection twice, and whole frames are read back. -/
theorem run_decodes :
    (∀ conn proxy,
      Decoded lower parseURL updateRoutes conn proxy (session lower parseURL updateRoutes conn proxy)) ∧
    (∀ quote dials secondChance conn proxy,
      let report := run lower parseURL updateRoutes quote dials secondChance conn proxy
      ∃ conns, conns.map .ok <+: .ok conn :: dials ∧
        Sessions lower parseURL updateRoutes conns proxy report.handed report.proxy report.result) ∧
    ∀ payloads conn proxy, (∀ payload ∈ payloads, payload.length < 2 ^ 32) →
      conn.bytes = Framing.frames header payloads →
      Delivered lower parseURL updateRoutes payloads proxy
        (session lower parseURL updateRoutes conn proxy).handed
        (session lower parseURL updateRoutes conn proxy).proxy ∧
      (Accepted lower parseURL updateRoutes payloads proxy →
        (session lower parseURL updateRoutes conn proxy).handed = payloads) := by
  refine ⟨session_decoded lower parseURL updateRoutes,run_sessions lower parseURL updateRoutes,
    fun payloads conn proxy short encoded => ?_⟩
  have leading : Framing.Leading header conn.bytes payloads := encoded ▸ Framing.leading_frames short
  have delivered := calls_delivered lower parseURL updateRoutes leading (Nat.lt_succ_self _) proxy
  exact ⟨delivered,delivered.accepted⟩

end Sessions

end NetworkSource

namespace Sample

/-- Two frames that arrive one byte first: no routes, and a line without any. -/
def twoFrames : NetworkSource.Conn :=
  ⟨[[0x43],(Framing.frames NetworkSource.header [[],[0x0A]]).tail],none⟩

def unprovided : RouteUpdater (Proxy Unit Unit) Unit := fun routes fallback proxy =>
  Proxy.setRoutes asciiLower (none : Option (CertificateProvider Unit Unit Unit)) (fun _ => ()) routes fallback proxy

theorem two_frames_handed :
    (NetworkSource.session Char.toLower (fun _ => none) unprovided twoFrames ⟨(),.empty⟩).handed = [[],[0x0A]] := by
  refine ((NetworkSource.run_decodes _ _ _).2.2 [[],[0x0A]] twoFrames _ (by decide) (by decide)).2 ?_
  exact .cons (.applied rfl rfl) (.cons (.applied rfl rfl) .nil)

end Sample

end Centauri
