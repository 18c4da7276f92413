import Centauri.JsonStore
import Centauri.Machine

/-! The ACME account over restarts of the process. What one start leaves in the user data
file is all that the next one knows about the account. -/
namespace Centauri

structure ExtendedAccount (B : Type) where
  account : B
  location : String

structure SavedUser (B : Type) where
  email : String
  body : B
  uri : String
  key : String
  deriving DecidableEq

/-- The encodings of the user data file. The body may come back changed (empty lists are
left out of it), the texts beside it may not. -/
structure UserCodec (S B : Type) where
  marshal : SavedUser B → Except String String
  unmarshal : String → Except String (SavedUser B)
  pemEncode : S → String
  parsePEMPrivateKey : String → Except String S
  unmarshals : marshal saved = .ok text → ∃ body, unmarshal text = .ok { saved with body }
  parses : parsePEMPrivateKey (pemEncode key) = .ok key

structure AcmeUser (S B : Type) where
  email : String
  account : Option (ExtendedAccount B)
  key : S
  eabKid : String
  eabHmac : String

structure LegoSupplierConfig where
  path : String
  email : String
  externalAccountKid : String
  externalAccountHmac : String

inductive RegisterOptions where
  | plain
  | externalAccountBinding (kid hmacEncoded : String)
  deriving DecidableEq

/-- `file` is what the user data path holds; `registered` lists the keys that accounts were
registered for, oldest first. -/
structure AccountDisk (S : Type) where
  file : Option String
  registered : List S

/-- One start of the process: its configuration and what it meets. Errors are those other
than `os.ErrNotExist`, which the disk decides. -/
structure Boot (S B : Type) where
  config : LegoSupplierConfig
  stat : Option String
  accessParent : Option String
  accessPath : Option String
  readFile : Option String
  generateKey : Except String S
  newClient : AcmeUser S B → Option String
  setDNS01Provider : Option String
  register : RegisterOptions → AcmeUser S B → Except String (ExtendedAccount B)
  writeFile : WriteFile

namespace Boot

variable {S B : Type} (codec : UserCodec S B) (boot : Boot S B)

def canWriteTo (disk : AccountDisk S) : Option String :=
  if boot.stat.isNone && disk.file.isNone then boot.accessParent else boot.accessPath

def read (disk : AccountDisk S) : ReadFile :=
  match boot.readFile with
  | some message => .failed message
  | none =>
    match disk.file with
    | none => .notExist
    | some text => .contents text

def load (disk : AccountDisk S) : Except String (AcmeUser S B) :=
  match boot.read disk with
  | .notExist =>
    match boot.generateKey with
    | .error message => .error ("unable to generate private key: " ++ message)
    | .ok key => .ok ⟨boot.config.email,none,key,boot.config.externalAccountKid,boot.config.externalAccountHmac⟩
  | .failed message =>
    .error ("unable to read saved user data from '" ++ boot.config.path ++ "': " ++ message)
  | .contents text =>
    match codec.unmarshal text with
    | .error message =>
      .error ("unable to parse saved user data from '" ++ boot.config.path ++ "': " ++ message)
    | .ok saved =>
      match codec.parsePEMPrivateKey saved.key with
      | .error message => .error ("unable to decode saved user private key: " ++ message)
      | .ok key => .ok ⟨saved.email,some ⟨saved.body,saved.uri⟩,key,
          boot.config.externalAccountKid,boot.config.externalAccountHmac⟩

def registerOptions (user : AcmeUser S B) : RegisterOptions :=
  if user.eabHmac ≠ "" ∧ user.eabKid ≠ "" then .externalAccountBinding user.eabKid user.eabHmac else .plain

def registerAndSave (user : AcmeUser S B) (disk : AccountDisk S) :
    AccountDisk S × Except String (AcmeUser S B) :=
  match boot.register (registerOptions user) user with
  | .error message => (disk,.error ("unable to register new account: " ++ message))
  | .ok account =>
    let registered := disk.registered ++ [user.key]
    match codec.marshal ⟨user.email,account.account,account.location,codec.pemEncode user.key⟩ with
    | .error message => (⟨disk.file,registered⟩,.error ("unable to serialize user data: " ++ message))
    | .ok text =>
      match boot.writeFile with
      | .failed message left => (⟨left,registered⟩,.error message)
      | .ok => (⟨some text,registered⟩,.ok { user with account := some account })

/-- The supplier is its user here; the rest of it is configuration. -/
def newLegoSupplier (disk : AccountDisk S) : AccountDisk S × Except String (AcmeUser S B) :=
  match boot.canWriteTo disk with
  | some message => (disk,.error ("unable to write to path " ++ boot.config.path ++ ": " ++ message))
  | none =>
    match boot.load codec disk with
    | .error message => (disk,.error message)
    | .ok user =>
      match boot.newClient user with
      | some message => (disk,.error message)
      | none =>
        match boot.setDNS01Provider with
        | some message => (disk,.error message)
        | none =>
          match user.account with
          | none => boot.registerAndSave codec user disk
          | some _ => (disk,.ok user)

/-- The file can be accessed and read, and the client and its DNS provider are set up, for which
the ACME directory has to answer; whether a registration would succeed does not matter. -/
structure Undisturbed : Prop where
  accessPath : boot.accessPath = none
  readFile : boot.readFile = none
  newClient : ∀ user, boot.newClient user = none
  setDNS01Provider : boot.setDNS01Provider = none

end Boot

/-- What the ACME server knows a user by. -/
structure Identity (S : Type) where
  email : String
  location : String
  key : S

def AcmeUser.identity (user : AcmeUser S B) : Option (Identity S) :=
  user.account.map fun account => ⟨user.email,account.location,user.key⟩

def AccountDisk.Records (codec : UserCodec S B) (disk : AccountDisk S) (identity : Identity S) : Prop :=
  ∃ text saved, disk.file = some text ∧ codec.unmarshal text = .ok saved ∧
    codec.parsePEMPrivateKey saved.key = .ok identity.key ∧
    saved.email = identity.email ∧ saved.uri = identity.location

namespace Boot

variable {S B : Type} {codec : UserCodec S B} {boot : Boot S B} {disk after : AccountDisk S}
  {user : AcmeUser S B} {identity : Identity S}

/-- A user is either new, which takes the absence of the file, or the one of the file. -/
theorem load_cases (loaded : boot.load codec disk = .ok user) :
    (user.account = none ∧ disk.file = none) ∨
      ∃ identity, user.identity = some identity ∧ disk.Records codec identity := by
  unfold load at loaded
  split at loaded
  · next absent =>
    split at loaded
    · cases loaded
    · cases loaded
      refine .inl ⟨rfl,?_⟩
      unfold read at absent
      split at absent
      · cases absent
      · split at absent
        · assumption
        · cases absent
  · cases loaded
  · next text contents =>
    split at loaded
    · cases loaded
    · next saved unmarshalled =>
      split at loaded
      · cases loaded
      · next key parsed =>
        cases loaded
        refine .inr ⟨_,rfl,text,saved,?_,unmarshalled,parsed,rfl,rfl⟩
        unfold read at contents
        split at contents
        · cases contents
        · split at contents
          · cases contents
          · next file =>
            cases contents
            exact file

theorem load_recorded (recorded : disk.Records codec identity) (readable : boot.readFile = none) :
    ∃ user, boot.load codec disk = .ok user ∧ user.identity = some identity ∧ user.account ≠ none := by
  obtain ⟨text,saved,file,unmarshalled,parsed,email,uri⟩ := recorded
  refine ⟨_,by rw [load,read,readable,file]; simp only [unmarshalled,parsed]; rfl,?_,by simp⟩
  simp [AcmeUser.identity,email,uri]

/-- What a registration that is saved leaves behind is the account it returns. -/
theorem registerAndSave_ok (saved : boot.registerAndSave codec user disk = (after,.ok user')) :
    ∃ identity, user'.identity = some identity ∧ after.Records codec identity := by
  unfold registerAndSave at saved
  split at saved
  · cases saved
  · next account registered =>
    dsimp only at saved
    split at saved
    · cases saved
    · next text marshalled =>
      split at saved
      · cases saved
      · cases saved
        obtain ⟨body,unmarshalled⟩ := codec.unmarshals marshalled
        exact ⟨_,rfl,text,_,rfl,unmarshalled,codec.parses,rfl,rfl⟩

variable (codec) in
/-- A start that finds a file, readable or not, leaves everything as it is. -/
theorem newLegoSupplier_found (boot : Boot S B) (file : disk.file = some text) :
    (boot.newLegoSupplier codec disk).1 = disk := by
  unfold newLegoSupplier
  split
  · rfl
  split
  · rfl
  next user loaded =>
  split
  · rfl
  split
  · rfl
  split
  · next fresh =>
    obtain ⟨-,absent⟩ | ⟨identity,known,-⟩ := load_cases loaded
    · rw [file] at absent
      cases absent
    · simp [AcmeUser.identity,fresh] at known
  · rfl

/-- Every supplier that is created has its account in the file. -/
theorem newLegoSupplier_ok (created : boot.newLegoSupplier codec disk = (after,.ok user)) :
    ∃ identity, user.identity = some identity ∧ after.Records codec identity := by
  unfold newLegoSupplier at created
  split at created
  · cases created
  split at created
  · cases created
  next loaded =>
  split at created
  · cases created
  split at created
  · cases created
  split at created
  · exact registerAndSave_ok created
  · next known =>
    cases created
    obtain ⟨fresh,-⟩ | found := load_cases loaded
    · rw [known] at fresh
      cases fresh
    · exact found

theorem newLegoSupplier_recorded (recorded : disk.Records codec identity) (calm : boot.Undisturbed) :
    ∃ user, boot.newLegoSupplier codec disk = (disk,.ok user) := by
  obtain ⟨user,loaded,-,known⟩ := load_recorded recorded calm.readFile
  obtain ⟨text,saved,file,-⟩ := recorded
  have writable : boot.canWriteTo disk = none := by simp [canWriteTo,file,calm.accessPath]
  refine ⟨user,?_⟩
  simp only [newLegoSupplier,writable,loaded,calm.newClient,calm.setDNS01Provider]
  cases account : user.account with
  | none => exact absurd account known
  | some account => rfl

end Boot

namespace AccountDisk

/-- One start after the other; each sees what the earlier ones left on the disk. -/
def machine (codec : UserCodec S B) : Machine (AccountDisk S) (Boot S B) where
  Enabled _ _ := True
  next disk boot := (boot.newLegoSupplier codec disk).1

variable {S B : Type} {codec : UserCodec S B} {disk final : AccountDisk S}
  {identity : Identity S}

theorem run_found (run : (machine codec).Run disk boots final) (file : disk.file = some text) :
    final = disk := by
  refine run.invariant (· = disk) ?_ rfl
  rintro u boot rfl -
  exact boot.newLegoSupplier_found codec file

theorem Records.unique {other : Identity S} (left : disk.Records codec identity)
    (right : disk.Records codec other) : identity = other := by
  obtain ⟨text,saved,file,unmarshalled,parsed,email,uri⟩ := left
  obtain ⟨text',saved',file',unmarshalled',parsed',email',uri'⟩ := right
  cases file.symm.trans file'
  cases unmarshalled.symm.trans unmarshalled'
  cases identity
  cases other
  cases parsed.symm.trans parsed'
  subst email uri
  cases email'
  cases uri'
  rfl

theorem Records.file (recorded : disk.Records codec identity) : ∃ text, disk.file = some text := by
  obtain ⟨text,_,file,-⟩ := recorded
  exact ⟨text,file⟩

/-- What a start leaves in the user data file stays there, and keeps further accounts from being
registered, through all later starts. If the start created a supplier, then all later ones that
create one go by the same account, its email, URL and key, and every undisturbed start does. -/
theorem account_kept (codec : UserCodec S B) (boot : Boot S B) (disk : AccountDisk S)
    (run : (machine codec).Run (boot.newLegoSupplier codec disk).1 later final) :
    (∀ text, (boot.newLegoSupplier codec disk).1.file = some text →
      final = (boot.newLegoSupplier codec disk).1) ∧
    ∀ user, (boot.newLegoSupplier codec disk).2 = .ok user →
      ∃ identity, user.identity = some identity ∧ ∀ next : Boot S B,
        (next.newLegoSupplier codec final).1 = final ∧
        (∀ user', (next.newLegoSupplier codec final).2 = .ok user' → user'.identity = some identity) ∧
        (next.Undisturbed → ∃ user', (next.newLegoSupplier codec final).2 = .ok user') := by
  refine ⟨fun text file => run_found run file,fun user created => ?_⟩
  obtain ⟨identity,known,recorded⟩ := Boot.newLegoSupplier_ok (Prod.ext rfl created)
  obtain ⟨text,file⟩ := recorded.file
  obtain rfl := run_found run file
  refine ⟨identity,known,fun next => ?_⟩
  have unchanged := next.newLegoSupplier_found codec file
  refine ⟨unchanged,fun user' again => ?_,fun calm => ?_⟩
  · obtain ⟨other,known',recorded'⟩ := Boot.newLegoSupplier_ok (Prod.ext unchanged again)
    rw [known',recorded'.unique recorded]
  · obtain ⟨user',done⟩ := Boot.newLegoSupplier_recorded recorded calm
    exact ⟨user',congrArg Prod.snd done⟩

end AccountDisk

namespace Sample

def savedUser : SavedUser Unit := ⟨"admin@example.com",(),"https://ca.example/acct/1","first"⟩

def userCodec : UserCodec String Unit where
  marshal saved := if saved = savedUser then .ok "user" else .error "unsupported"
  unmarshal text := if text = "user" then .ok savedUser else .error "unexpected end of JSON input"
  pemEncode := id
  parsePEMPrivateKey := .ok
  unmarshals := by
    intro saved text marshalled
    split at marshalled
    · next same =>
      cases marshalled
      exact ⟨(),by simp [same]⟩
    · cases marshalled
  parses := rfl

def boot (key email : String) (writeFile : WriteFile) : Boot String Unit where
  config := ⟨"user.pem",email,"",""⟩
  stat := none
  accessParent := none
  accessPath := none
  readFile := none
  generateKey := .ok key
  newClient _ := none
  setDNS01Provider := none
  register _ _ := .ok ⟨(),"https://ca.example/acct/1"⟩
  writeFile := writeFile

def registeredDisk : AccountDisk String :=
  ((boot "first" "admin@example.com" .ok).newLegoSupplier userCodec ⟨none,[]⟩).1

/-- Once the first start has registered, a key or an email it did not use makes no difference. -/
theorem same_account_found :
    registeredDisk.registered = ["first"] ∧ ∃ identity, ∀ key email writeFile, ∃ user,
      ((boot key email writeFile).newLegoSupplier userCodec registeredDisk).2 = .ok user ∧
      user.identity = some identity := by
  have restarted : (AccountDisk.machine userCodec).Run registeredDisk
      [boot "second" "root@example.com" .ok] registeredDisk := .cons trivial .nil
  obtain ⟨identity,-,later⟩ := (AccountDisk.account_kept userCodec _ _ restarted).2 _ rfl
  refine ⟨rfl,identity,fun key email writeFile => ?_⟩
  obtain ⟨-,same,works⟩ := later (boot key email writeFile)
  obtain ⟨user,created⟩ := works ⟨rfl,rfl,fun _ => rfl,rfl⟩
  exact ⟨user,created,same user created⟩

/-- A write that fails half-way leaves a file that no later start gets past. -/
example (key email : String) (writeFile : WriteFile) :
    ((boot key email writeFile).newLegoSupplier userCodec
      ((boot "first" "admin@example.com" (.failed "no space left on device" (some ""))).newLegoSupplier
        userCodec ⟨none,[]⟩).1).2 =
      .error "unable to parse saved user data from 'user.pem': unexpected end of JSON input" := rfl

end Sample
end Centauri
