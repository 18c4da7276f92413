import Centauri.RouteRenewal
import Centauri.StoreSimulation

/-! An update on the Redis store when any of its reads and writes may fail. The
certificate the route holds is never consulted, so whether it keeps one depends on
the replies, the supplier and the hash alone; `Survives` says how. -/
namespace Centauri

/-- One update: whom it asks for which names, what it meets, and how the read of the
fallback goes. -/
structure RedisUpdate where
  supplier : Supplier
  name : String
  subject : String
  altNames : List String
  answers : Answers (Except String Listing) (Except String Listing × Exec)
  fallback : Except String Listing

namespace RedisUpdate

open RedisStore (Coherent Holds Plain PlainNames)

variable {K : Type} (json : Json) (crypto : Crypto K) (expiry : K → Int) (u : RedisUpdate)

def now : Int := u.answers.now

def wanted : String × String × List String := (u.name,u.subject,sortedCopy u.altNames)

/-- Stored for the names: by the provider, or for want of that without any. -/
def Placed (hash : RedisHash) (d : Details) : Prop :=
  d.key = u.wanted ∨ d.key = ("",u.subject,sortedCopy u.altNames) ∧ ∀ e, Holds json hash e → e.key ≠ u.wanted

structure Keeps (hash : RedisHash) (d : Details) : Prop where
  holds : Holds json hash d
  placed : u.Placed json hash d

def Good (d : Details) : Prop :=
  ∃ pair, crypto.x509KeyPair d.certificate d.privateKey = .ok pair ∧ u.now < expiry pair

structure Fit (d : Details) : Prop where
  usable : Usable crypto u.now d
  good : u.Good crypto expiry d

structure FallsBack (hash : RedisHash) : Prop where
  read : ∃ listing, u.fallback = .ok listing
  kept : ∃ d, u.Keeps json hash d ∧ u.Fit crypto expiry d

/-- A save gets as far as changing the hash, whether or not it says so. -/
structure TakesEffect (faults : Except String Listing × Exec) (d : Details) : Prop where
  read : ∃ listing, faults.1 = .ok listing
  encoded : ∃ raw, json.marshal d = .ok raw
  exec : ∀ message, faults.2 ≠ .failed message

/-- How the supplier's answer and the save of what it delivered may turn out well. -/
inductive Attempt (hash : RedisHash) (faults : Except String Listing × Exec) : Except String Details → Prop where
  | refused : u.FallsBack json crypto expiry hash → Attempt hash faults (.error message)
  | lost : ¬TakesEffect json faults d → u.FallsBack json crypto expiry hash → Attempt hash faults (.ok d)
  | unreported : TakesEffect json faults d → faults.2 ≠ .ok → (∃ listing, u.fallback = .ok listing) →
      u.Fit crypto expiry d → Attempt hash faults (.ok d)
  | saved : TakesEffect json faults d → faults.2 = .ok → u.Good crypto expiry d → Attempt hash faults (.ok d)

def issue : Except String Details :=
  u.answers.issued.map (Details.issuedAs u.name u.answers.issuedRenewalInfo)

/-- The ARI data of the answer counts, where that of the certificate is due for an update. -/
def informed (d : Details) : Details :=
  if d.ariNextUpdate < u.now then u.answers.renewalInfo.toOption.elim d fun info => d.withRenewalInfo info else d

def stapled (d : Details) : Except String Details := u.answers.staple.map fun s => (u.informed d).withStaple s

structure Found (hash : RedisHash) (d : Details) : Prop where
  read : ∃ listing, u.answers.lookup = .ok listing
  kept : u.Keeps json hash d

def Lasts (d : Details) : Prop := (u.informed d).shouldRenew u.now u.supplier.minCertificateValidity = false

/-- The update ends with an unexpired certificate: by the replies to its reads and writes, the
answers of the supplier, and what the hash holds. -/
inductive Survives (hash : RedisHash) : Prop where
  | missing : (∀ d, ¬u.Found json hash d) → u.Attempt json crypto expiry hash u.answers.saveIssued u.issue →
      Survives hash
  | due : u.Found json hash d → ¬u.Lasts d → u.Attempt json crypto expiry hash u.answers.saveIssued u.issue →
      Survives hash
  | unstapled : u.Found json hash d → u.Lasts d → d.requiresStaple crypto = some true →
      d.hasStapleFor u.now u.supplier.minStapleValidity = false →
      u.Attempt json crypto expiry hash u.answers.saveStaple (u.stapled d) → Survives hash
  | current : u.Found json hash d → u.Lasts d → (d.requiresStaple crypto = some false ∨
      d.requiresStaple crypto = some true ∧ d.hasStapleFor u.now u.supplier.minStapleValidity = true) →
      u.Good crypto expiry d → Survives hash

section Lookups

variable {json crypto expiry u} {hash : RedisHash}

theorem Keeps.unique (coherent : Coherent json hash) (keeps : u.Keeps json hash d) (other : u.Keeps json hash e) :
    d = e := by
  have same : d.key = e.key := by
    rcases keeps.placed with exact | ⟨legacy,absent⟩
    · rcases other.placed with exact' | ⟨_,absent'⟩
      · exact exact.trans exact'.symm
      · exact absurd exact (absent' d keeps.holds)
    · rcases other.placed with exact' | ⟨legacy',_⟩
      · exact absurd exact' (absent e other.holds)
      · exact legacy.trans legacy'.symm
  have fields := (RedisStore.field_eq_iff (keeps.holds.plain coherent) (other.holds.plain coherent)).mpr same
  obtain ⟨raw,found,decoded⟩ := (RedisStore.holds_iff coherent).mp keeps.holds
  obtain ⟨raw',found',decoded'⟩ := (RedisStore.holds_iff coherent).mp other.holds
  rw [fields] at found
  obtain rfl := Option.some.inj (found.symm.trans found')
  exact Except.ok.inj (decoded.symm.trans decoded')

variable (json u) in
/-- What a read finds for the names; nothing when it fails. -/
def looked (read : Except String Listing) (hash : RedisHash) : Option Details :=
  RedisStore.getCertificate json (RedisStore.reply read hash) u.name u.subject u.altNames

theorem lookup_none {read : Except String Listing} {w : World RedisHash} (looks : u.looked json read w.store = none) :
    Manager.lookup (RedisStore.asStore json) read u.name u.subject u.altNames w = (w,none) := by
  unfold looked at looks
  simp [Manager.lookup,RedisStore.asStore,looks,World.take]

theorem lookup_some {read : Except String Listing} {w : World RedisHash} (looks : u.looked json read w.store = some d) :
    Manager.lookup (RedisStore.asStore json) read u.name u.subject u.altNames w = (w.alloc d,some w.fresh) := by
  unfold looked at looks
  simp [Manager.lookup,RedisStore.asStore,looks,World.take]

theorem looked_iff (coherent : Coherent json hash) (read : Except String Listing) :
    u.looked json read hash = some d ↔ (∃ listing, read = .ok listing) ∧ u.Keeps json hash d := by
  cases read with
  | error message => simp [looked,RedisStore.reply,RedisStore.getCertificate]
  | ok listing =>
    have reply : (listing.order hash.entries).Perm hash.entries := listing.perm _
    change selectCertificate id u.name u.subject u.altNames none _ = some d ↔ _
    rw [selectCertificate_eq_some_iff (RedisStore.allCertificates_distinct coherent reply),
      RedisStore.mem_allCertificates reply]
    simp only [Chosen,RedisStore.mem_allCertificates reply,Except.ok.injEq,exists_eq',true_and]
    exact ⟨fun both => ⟨both.1,both.2⟩,fun keeps => ⟨keeps.holds,keeps.placed⟩⟩

/-- What the fallback finds decides. -/
theorem fallsBack_iff (coherent : Coherent json hash) :
    (∃ d, u.looked json u.fallback hash = some d ∧ u.Fit crypto expiry d) ↔ u.FallsBack json crypto expiry hash := by
  simp only [looked_iff coherent]
  exact ⟨fun ⟨d,⟨read,keeps⟩,fit⟩ => ⟨read,d,keeps,fit⟩,fun ⟨read,d,keeps,fit⟩ => ⟨d,⟨read,keeps⟩,fit⟩⟩

theorem Keeps.fallsBack_iff (keeps : u.Keeps json hash d) (coherent : Coherent json hash) :
    u.FallsBack json crypto expiry hash ↔ (∃ listing, u.fallback = .ok listing) ∧ u.Fit crypto expiry d := by
  constructor
  · rintro ⟨read,e,kept,fit⟩
    exact ⟨read,keeps.unique coherent kept ▸ fit⟩
  · rintro ⟨read,fit⟩
    exact ⟨read,d,keeps,fit⟩

/-- What a save does to the hash and reports. -/
theorem save_cases (coherent : Coherent json hash) (plain : PlainNames d) (placed : u.Placed json hash d)
    (now : Int) (faults : Except String Listing × Exec) :
    let saved := RedisStore.saveCertificate json now (RedisStore.reply faults.1 hash) faults.2 d hash
    (¬TakesEffect json faults d ∧ saved.1 = hash ∧ saved.2 ≠ none) ∨
      TakesEffect json faults d ∧ Coherent json saved.1 ∧ u.Keeps json saved.1 d ∧
        (saved.2 = none ↔ faults.2 = .ok) := by
  obtain ⟨read,exec⟩ := faults
  cases read with
  | error message =>
    refine .inl ⟨fun takes => ?_,rfl,by simp [RedisStore.saveCertificate,RedisStore.reply]⟩
    obtain ⟨_,reads⟩ := takes.read
    cases reads
  | ok listing =>
    cases encoded : json.marshal d with
    | error message =>
      refine .inl ⟨fun takes => ?_,?_⟩
      · obtain ⟨_,encodes⟩ := takes.encoded
        cases encoded.symm.trans encodes
      · simp [RedisStore.saveCertificate,RedisStore.reply,encoded]
    | ok raw =>
      have reply : (listing.order hash.entries).Perm hash.entries := listing.perm _
      have coherent' : Coherent json (RedisStore.transaction
          (RedisStore.pruneArgs json now (listing.order hash.entries)) d raw hash) :=
        RedisStore.transaction_coherent coherent plain encoded
      have keeps : u.Keeps json (RedisStore.transaction
          (RedisStore.pruneArgs json now (listing.order hash.entries)) d raw hash) d := by
        refine ⟨(RedisStore.transaction_holds coherent plain encoded reply).mpr (.inl rfl),?_⟩
        rcases placed with exact | ⟨legacy,absent⟩
        · exact .inl exact
        · by_cases same : d.key = u.wanted
          · exact .inl same
          · refine .inr ⟨legacy,fun e holds => ?_⟩
            rcases (RedisStore.transaction_holds coherent plain encoded reply).mp holds with rfl | ⟨old,_⟩
            · exact same
            · exact absent e old
      cases exec with
      | failed message =>
        refine .inl ⟨fun takes => takes.exec message rfl,?_⟩
        simp [RedisStore.saveCertificate,RedisStore.reply,encoded]
      | ok =>
        refine .inr ⟨⟨⟨listing,rfl⟩,⟨raw,encoded⟩,by simp⟩,?_⟩
        simpa [RedisStore.saveCertificate,RedisStore.reply,encoded] using And.intro coherent' keeps
      | applied message =>
        refine .inr ⟨⟨⟨listing,rfl⟩,⟨raw,encoded⟩,by simp⟩,?_⟩
        simpa [RedisStore.saveCertificate,RedisStore.reply,encoded] using And.intro coherent' keeps

end Lookups

variable {json crypto expiry u}

/-- ARI data has no bearing on anything but the time of the renewal. -/
theorem informed_cases (d : Details) : u.informed d = d ∨ ∃ info, u.informed d = d.withRenewalInfo info := by
  unfold informed
  split
  · cases u.answers.renewalInfo with
    | error message => exact .inl rfl
    | ok info => exact .inr ⟨info,rfl⟩
  · exact .inl rfl

theorem informed_names (d : Details) : (u.informed d).key = d.key ∧ (PlainNames (u.informed d) ↔ PlainNames d) := by
  rcases informed_cases d with same | ⟨info,same⟩
  · rw [same]
    exact ⟨rfl,Iff.rfl⟩
  · rw [same]
    exact ⟨rfl,Iff.rfl⟩

theorem informed_good (d : Details) : u.Good crypto expiry (u.informed d) ↔ u.Good crypto expiry d := by
  rcases informed_cases d with same | ⟨info,same⟩
  · rw [same]
  · rw [same]
    rfl

theorem informed_staple (crypto : Crypto K) (d : Details) :
    (u.informed d).requiresStaple crypto = d.requiresStaple crypto ∧
      ∀ period, (u.informed d).hasStapleFor u.now period = d.hasStapleFor u.now period := by
  rcases informed_cases d with same | ⟨info,same⟩
  · rw [same]
    exact ⟨rfl,fun _ => rfl⟩
  · rw [same]
    exact ⟨rfl,fun _ => rfl⟩

theorem informed_fit (d : Details) : u.Fit crypto expiry (u.informed d) ↔ u.Fit crypto expiry d := by
  rcases informed_cases d with same | ⟨info,same⟩
  · rw [same]
  · rw [same]
    constructor
    · exact fun fit => ⟨⟨fit.usable.valid,fit.usable.stapled,fit.usable.parses⟩,fit.good⟩
    · exact fun fit => ⟨fit.usable.withRenewalInfo info,fit.good⟩

def Ends (json : Json) (crypto : Crypto K) (expiry : K → Int) (u : RedisUpdate)
    (result : World RedisHash × Outcome (TlsCertificate K)) : Prop :=
  match result.2 with
  | .ok key => u.now < expiry key.pair
  | .err _ => ∃ d, u.looked json u.fallback result.1.store = some d ∧ u.Fit crypto expiry d
  | .crashed => False

theorem good_iff (parsed : d.keyPair crypto = .ok key) : u.Good crypto expiry d ↔ u.now < expiry key.pair := by
  unfold Details.keyPair at parsed
  split at parsed
  next => cases parsed
  next pair accepted =>
    obtain rfl := Except.ok.inj parsed
    simp [Good,accepted]

theorem Good.parses (good : u.Good crypto expiry d) : ∃ key, d.keyPair crypto = .ok key := by
  obtain ⟨pair,accepted,_⟩ := good
  exact ⟨⟨pair,d.ocspResponse⟩,by rw [Details.keyPair,accepted]⟩

/-- What is handed out has to be good: if it does not parse, the fallback finds it again. -/
theorem ends_keyPair {w : World RedisHash} (coherent : Coherent json w.store) (keeps : u.Keeps json w.store kept)
    (same : u.Fit crypto expiry kept → u.Good crypto expiry d) :
    u.Ends json crypto expiry (w,.ofExcept (d.keyPair crypto)) ↔ u.Good crypto expiry d := by
  cases parsed : d.keyPair crypto with
  | ok key => exact (good_iff parsed).symm
  | error message =>
    change (∃ d, u.looked json u.fallback w.store = some d ∧ u.Fit crypto expiry d) ↔ _
    rw [fallsBack_iff coherent,keeps.fallsBack_iff coherent]
    constructor
    · exact fun back => same back.2
    · intro good
      obtain ⟨key,parsed'⟩ := good.parses
      cases parsed.symm.trans parsed'

theorem ends_deliver (faults : Except String Listing × Exec) (label : String) {cert : Ref} {w : World RedisHash}
    (coherent : Coherent json w.store) (plain : PlainNames (w.heap cert)) (placed : u.Placed json w.store (w.heap cert)) :
    u.Ends json crypto expiry
        (Manager.deliver crypto (RedisStore.asStore json) u.now faults label cert w) ↔
      u.Attempt json crypto expiry w.store faults (.ok (w.heap cert)) := by
  have cases := save_cases coherent plain placed u.now faults
  unfold Manager.deliver Manager.save
  dsimp only [RedisStore.asStore]
  generalize RedisStore.saveCertificate json u.now (RedisStore.reply faults.1 w.store) faults.2 (w.heap cert)
    w.store = saved at cases
  obtain ⟨hash,reported⟩ := saved
  rcases cases with ⟨lost,rfl,failed⟩ | ⟨takes,coherent',keeps,exec⟩
  · obtain ⟨message,rfl⟩ := Option.ne_none_iff_exists'.mp failed
    refine (fallsBack_iff coherent).trans ⟨.lost lost,fun attempt => ?_⟩
    cases attempt with
    | lost _ back => exact back
    | unreported takes => exact absurd takes lost
    | saved takes => exact absurd takes lost
  · cases reported with
    | some message =>
      have unreported : faults.2 ≠ .ok := fun ok => by cases exec.mpr ok
      refine ((fallsBack_iff coherent').trans (keeps.fallsBack_iff coherent')).trans ⟨fun back => ?_,fun attempt => ?_⟩
      · exact .unreported takes unreported back.1 back.2
      · cases attempt with
        | lost lost => exact absurd takes lost
        | unreported _ _ read fit => exact ⟨read,fit⟩
        | saved _ ok => exact absurd ok unreported
    | none =>
      have ok : faults.2 = .ok := exec.mp rfl
      refine (ends_keyPair coherent' keeps Fit.good).trans ⟨.saved takes ok,fun attempt => ?_⟩
      cases attempt with
      | lost lost => exact absurd takes lost
      | unreported _ unreported => exact absurd ok unreported
      | saved _ _ good => exact good

def PlainRequest (u : RedisUpdate) : Prop := ∀ s ∈ u.name :: u.subject :: u.altNames, Plain s

def Asked (u : RedisUpdate) : Prop := ∀ d, u.answers.issued = .ok d → d.isFor u.subject u.altNames = true

theorem ends_refused {w : World RedisHash} (coherent : Coherent json w.store) (message : String) :
    u.Ends json crypto expiry (w,.err message) ↔ u.Attempt json crypto expiry w.store faults (.error why) := by
  refine (fallsBack_iff coherent).trans ⟨.refused,fun attempt => ?_⟩
  cases attempt with
  | refused back => exact back

theorem ends_obtain (m : Manager) {w : World RedisHash} (coherent : Coherent json w.store) (plain : u.PlainRequest)
    (asked : u.Asked) :
    u.Ends json crypto expiry
        (m.obtain crypto (RedisStore.asStore json) u.answers u.name u.subject u.altNames w) ↔
      u.Attempt json crypto expiry w.store u.answers.saveIssued u.issue := by
  unfold Manager.obtain issue
  cases issued : u.answers.issued with
  | error message => exact ends_refused coherent ("failed to obtain certificate for " ++ u.subject ++ ": " ++ message)
  | ok d =>
    obtain ⟨subject,perm⟩ := (Details.isFor_iff ..).mp (asked d issued)
    obtain ⟨same,_,contents,_⟩ := Manager.issue_spec (RedisStore.asStore json) u.answers.now
      u.answers.issuedRenewalInfo u.name d
      (w.call (.getCertificate u.subject u.altNames m.shouldStaple)) _ rfl
    have key : (d.issuedAs u.name u.answers.issuedRenewalInfo).key = u.wanted := by
      rw [Details.issuedAs_key,subject,(sortedCopy_eq_iff _ _).mpr perm]
      rfl
    have named : PlainNames (d.issuedAs u.name u.answers.issuedRenewalInfo) := by
      have fields : (d.issuedAs u.name u.answers.issuedRenewalInfo).provider = u.name ∧
          (d.issuedAs u.name u.answers.issuedRenewalInfo).subject = d.subject ∧
          (d.issuedAs u.name u.answers.issuedRenewalInfo).altNames = d.altNames := by
        cases u.answers.issuedRenewalInfo <;> exact ⟨rfl,rfl,rfl⟩
      intro s member
      rw [fields.1,fields.2.1,fields.2.2,subject] at member
      exact plain s (by simpa [perm.mem_iff] using member)
    rw [World.store_call] at same
    dsimp only [Except.map]
    rw [← contents,← same]
    exact ends_deliver _ _ (same ▸ coherent) (contents ▸ named) (contents ▸ .inl key)

theorem ends_staple {cert : Ref} {w : World RedisHash} (coherent : Coherent json w.store)
    (plain : PlainNames (w.heap cert)) (placed : u.Placed json w.store (w.heap cert)) :
    u.Ends json crypto expiry (Manager.staple crypto (RedisStore.asStore json) u.answers cert w) ↔
      u.Attempt json crypto expiry w.store u.answers.saveStaple
        (u.answers.staple.map fun s => (w.heap cert).withStaple s) := by
  unfold Manager.staple
  cases u.answers.staple with
  | error message =>
    exact ends_refused coherent ("failed to obtain OCSP staple for " ++ (w.heap cert).subject ++ ": " ++ message)
  | ok s =>
    have contents : ((w.call (.updateStaple cert)).modify cert (Details.withStaple s)).heap cert =
        (w.heap cert).withStaple s := Function.update_self ..
    dsimp only [Except.map]
    rw [← contents]
    exact ends_deliver (w := (w.call (.updateStaple cert)).modify cert (Details.withStaple s)) _ _ coherent
      (contents ▸ plain) (contents ▸ placed)

/-- What a refresh leaves: the certificate with its ARI data, and a hash that serves as before. -/
structure Refreshed (json : Json) (crypto : Crypto K) (expiry : K → Int) (u : RedisUpdate) (hash : RedisHash)
    (d : Details) (cert : Ref) (w : World RedisHash) : Prop where
  contents : w.heap cert = u.informed d
  coherent : Coherent json w.store
  kept : ∃ e, u.Keeps json w.store e ∧ (u.Fit crypto expiry e ↔ u.Fit crypto expiry d)
  placed : u.Placed json w.store (u.informed d)
  fallsBack : u.FallsBack json crypto expiry w.store ↔ u.FallsBack json crypto expiry hash

theorem Keeps.refreshed {hash : RedisHash} (keeps : u.Keeps json hash d) (coherent : Coherent json hash)
    {w : World RedisHash} (same : w.store = hash) (contents : w.heap cert = u.informed d) :
    Refreshed json crypto expiry u hash d cert w := by
  subst same
  refine ⟨contents,coherent,⟨d,keeps,Iff.rfl⟩,?_,Iff.rfl⟩
  unfold Placed
  rw [(informed_names d).1]
  exact keeps.placed

theorem refresh_spec {cert : Ref} {w : World RedisHash} (coherent : Coherent json w.store)
    (keeps : u.Keeps json w.store (w.heap cert)) :
    Refreshed json crypto expiry u w.store (w.heap cert) cert
      (Manager.refresh (RedisStore.asStore json) u.answers cert w) := by
  unfold Manager.refresh
  split
  next due =>
    unfold Manager.updateRenewalInfo
    cases answer : u.answers.renewalInfo with
    | error message =>
      refine keeps.refreshed coherent rfl ?_
      simp [informed,answer,Except.toOption,World.call]
    | ok info =>
      have known : (w.heap cert).withRenewalInfo info = u.informed (w.heap cert) := by
        have due' : (w.heap cert).ariNextUpdate < u.now := due
        simp [informed,due',answer,Except.toOption]
      have contents : ((w.call (.updateRenewalInfo cert)).modify cert (Details.withRenewalInfo info)).heap cert =
          u.informed (w.heap cert) := (Function.update_self ..).trans known
      have placed : u.Placed json w.store (u.informed (w.heap cert)) := by
        unfold Placed
        rw [(informed_names _).1]
        exact keeps.placed
      have cases := save_cases coherent ((informed_names _).2.mpr (keeps.holds.plain coherent)) placed
        u.answers.now u.answers.saveRenewalInfo
      dsimp only [Manager.save,RedisStore.asStore]
      rw [contents]
      rcases cases with ⟨_,unchanged,_⟩ | ⟨_,coherent',keeps',_⟩
      · exact keeps.refreshed coherent unchanged contents
      · refine ⟨contents,coherent',⟨_,keeps',informed_fit _⟩,keeps'.placed,?_⟩
        refine (keeps'.fallsBack_iff coherent').trans (.trans ?_ (keeps.fallsBack_iff coherent).symm)
        exact and_congr_right fun _ => informed_fit _
  next current =>
    refine keeps.refreshed coherent rfl ?_
    exact (if_neg current).symm

theorem Attempt.congr {hash hash' : RedisHash}
    (same : u.FallsBack json crypto expiry hash ↔ u.FallsBack json crypto expiry hash')
    (attempt : u.Attempt json crypto expiry hash faults delivered) :
    u.Attempt json crypto expiry hash' faults delivered := by
  cases attempt with
  | refused back => exact .refused (same.mp back)
  | lost lost back => exact .lost lost (same.mp back)
  | unreported takes unreported read fit => exact .unreported takes unreported read fit
  | saved takes ok good => exact .saved takes ok good

theorem Refreshed.attempt {hash : RedisHash} {w : World RedisHash}
    (refreshed : Refreshed json crypto expiry u hash d cert w) :
    u.Attempt json crypto expiry w.store faults delivered ↔ u.Attempt json crypto expiry hash faults delivered :=
  ⟨.congr refreshed.fallsBack,.congr refreshed.fallsBack.symm⟩

/-- Only one certificate can be found, and the conditions on it exclude each other. -/
theorem Found.survives_cases {hash : RedisHash} (coherent : Coherent json hash) (found : u.Found json hash d) :
    u.Survives json crypto expiry hash ↔
      ¬u.Lasts d ∧ u.Attempt json crypto expiry hash u.answers.saveIssued u.issue ∨
      u.Lasts d ∧ (d.requiresStaple crypto = some true ∧
          d.hasStapleFor u.now u.supplier.minStapleValidity = false ∧
          u.Attempt json crypto expiry hash u.answers.saveStaple (u.stapled d) ∨
        (d.requiresStaple crypto = some false ∨
          d.requiresStaple crypto = some true ∧ d.hasStapleFor u.now u.supplier.minStapleValidity = true) ∧
          u.Good crypto expiry d) := by
  have only (other : Details) (found' : u.Found json hash other) : other = d :=
    found'.kept.unique coherent found.kept
  constructor
  · intro survives
    cases survives with
    | missing none _ => exact absurd found (none d)
    | due found' due attempt => exact .inl (only _ found' ▸ ⟨due,attempt⟩)
    | unstapled found' lasts must lacks attempt =>
      obtain rfl := only _ found'
      exact .inr ⟨lasts,.inl ⟨must,lacks,attempt⟩⟩
    | current found' lasts settled good =>
      obtain rfl := only _ found'
      exact .inr ⟨lasts,.inr ⟨settled,good⟩⟩
  · rintro (⟨due,attempt⟩ | ⟨lasts,⟨must,lacks,attempt⟩ | ⟨settled,good⟩⟩)
    · exact .due found due attempt
    · exact .unstapled found lasts must lacks attempt
    · exact .current found lasts settled good

theorem ends_proceed (m : Manager) {hash : RedisHash} (coherent : Coherent json hash) (plain : u.PlainRequest)
    (asked : u.Asked) (found : u.Found json hash d) {w : World RedisHash}
    (refreshed : Refreshed json crypto expiry u hash d cert w) :
    u.Ends json crypto expiry (m.proceed crypto (RedisStore.asStore json) u.answers u.supplier
        u.name u.subject u.altNames cert w) ↔
      u.Survives json crypto expiry hash := by
  obtain ⟨requires,has⟩ := informed_staple (u := u) crypto d
  rw [found.survives_cases coherent]
  unfold Manager.proceed
  rw [refreshed.contents]
  split
  next due =>
    have due' : ¬u.Lasts d := by simpa [Lasts,now] using due
    rw [ends_obtain m refreshed.coherent plain asked,refreshed.attempt]
    simp [due']
  next lasts =>
    have lasts' : u.Lasts d := by simpa [Lasts,now] using lasts
    rw [requires]
    cases required : d.requiresStaple crypto with
    | none =>
      refine iff_of_false (fun ends => ends) ?_
      simp [lasts']
    | some must =>
      dsimp only
      rw [show (u.informed d).hasStapleFor u.answers.now u.supplier.minStapleValidity =
        d.hasStapleFor u.now u.supplier.minStapleValidity from has _]
      split
      next lacking =>
        obtain ⟨rfl,lacks⟩ : must = true ∧ d.hasStapleFor u.now u.supplier.minStapleValidity = false := by
          simpa using lacking
        have named : PlainNames (w.heap cert) :=
          refreshed.contents ▸ (informed_names d).2.mpr (found.kept.holds.plain coherent)
        rw [ends_staple refreshed.coherent named (refreshed.contents ▸ refreshed.placed),refreshed.contents,
          refreshed.attempt]
        simp [lasts',lacks,stapled]
      next stands =>
        obtain ⟨e,keeps,fit⟩ := refreshed.kept
        rw [ends_keyPair refreshed.coherent keeps fun kept => (informed_good d).mpr (fit.mp kept).good,informed_good]
        cases must with
        | false => simp [lasts']
        | true =>
          have stapled : d.hasStapleFor u.now u.supplier.minStapleValidity = true := by simpa using stands
          simp [lasts',stapled]

theorem ends_getLocked (m : Manager) {w : World RedisHash} (coherent : Coherent json w.store) (plain : u.PlainRequest)
    (asked : u.Asked) :
    u.Ends json crypto expiry (m.getLocked crypto (RedisStore.asStore json) u.answers u.supplier
        u.name u.subject u.altNames w) ↔ u.Survives json crypto expiry w.store := by
  unfold Manager.getLocked
  cases looks : u.looked json u.answers.lookup w.store with
  | none =>
    have none (d : Details) : ¬u.Found json w.store d := by
      intro found
      cases looks.symm.trans ((looked_iff coherent _).mpr ⟨found.read,found.kept⟩)
    rw [lookup_none looks]
    refine (ends_obtain m coherent plain asked).trans ⟨.missing none,fun survives => ?_⟩
    cases survives with
    | missing _ attempt => exact attempt
    | due found => exact absurd found (none _)
    | unstapled found => exact absurd found (none _)
    | current found => exact absurd found (none _)
  | some d =>
    have contents : (w.alloc d).heap w.fresh = d := Function.update_self ..
    obtain ⟨read,keeps⟩ := (looked_iff coherent _).mp looks
    have refreshed : Refreshed json crypto expiry u w.store ((w.alloc d).heap w.fresh) w.fresh
        (Manager.refresh (RedisStore.asStore json) u.answers w.fresh (w.alloc d)) :=
      refresh_spec (w := w.alloc d) coherent (contents.symm ▸ keeps)
    rw [contents] at refreshed
    rw [lookup_some looks]
    exact ends_proceed m coherent plain asked ⟨read,keeps⟩ refreshed

end RedisUpdate

def Route.Serves {K : Type} (expiry : K → Int) (now : Int) (route : Route K) : Prop :=
  ∃ cert, route.certificate = some cert ∧ now < expiry cert.pair ∧
    route.certificateStatus.served = true

section Routes

variable {K : Type} {json : Json} {crypto : Crypto K} {expiry : K → Int} {m : Manager}

def Route.redisUpdate (route : Route K) (supplier : Supplier) (name : String)
    (answers : Answers (Except String Listing) (Except String Listing × Exec))
    (fallback : Except String Listing) : RedisUpdate :=
  ⟨supplier,name,route.certificateNames.1,route.certificateNames.2,answers,fallback⟩

theorem load_serves_iff (route : Route K) (w : World RedisHash)
    (resolved : m.supplier route.provider = .ok (supplier,name)) :
    (∃ after, (CertificateProvider.loadCertificate (some (m.asProvider crypto (RedisStore.asStore json)))
        (answers,fallback) route w).2 = some after ∧ after.Serves expiry answers.now) ↔
      ∃ d, (route.redisUpdate supplier name answers fallback).looked json fallback w.store = some d ∧
        (route.redisUpdate supplier name answers fallback).Fit crypto expiry d := by
  unfold CertificateProvider.loadCertificate
  dsimp only [Manager.asProvider,Manager.getExistingCertificate]
  rw [resolved]
  dsimp only
  cases looks : (route.redisUpdate supplier name answers fallback).looked json fallback w.store with
  | none =>
    have missed : Manager.lookup (RedisStore.asStore json) fallback name route.certificateNames.1
        route.certificateNames.2 w = (w,none) := RedisUpdate.lookup_none looks
    rw [missed]
    simp [Route.Serves,Route.setCertificate]
  | some d =>
    have judged (key : TlsCertificate K) := judge_usable_iff crypto answers.now supplier d key
    have copied : Manager.lookup (RedisStore.asStore json) fallback name route.certificateNames.1
        route.certificateNames.2 w = (w.alloc d,some w.fresh) := RedisUpdate.lookup_some looks
    have contents : (w.alloc d).heap w.fresh = d := Function.update_self ..
    rw [copied]
    dsimp only
    rw [contents]
    -- Any verdict but `found` withdraws the route, and rules out a usable certificate.
    have unusable (lost : ∀ key renewal, Manager.judge crypto answers.now supplier d ≠ .found key renewal) :
        ¬∃ e, some d = some e ∧ (route.redisUpdate supplier name answers fallback).Fit crypto expiry e := by
      rintro ⟨e,same,usable,_⟩
      obtain rfl := Option.some.inj same
      obtain ⟨key,parsed⟩ := usable.parses
      obtain ⟨renewal,good⟩ := (judged key).mpr ⟨usable,parsed⟩
      exact lost key renewal good
    cases verdict : Manager.judge crypto answers.now supplier d with
    | found key renewal =>
      obtain ⟨usable,parsed⟩ := (judged key).mp ⟨renewal,verdict⟩
      have status : (if renewal then CertificateStatus.expiringSoon else .good).served = true := by
        cases renewal <;> rfl
      have fit : (route.redisUpdate supplier name answers fallback).Fit crypto expiry d ↔ answers.now < expiry key.pair :=
        ⟨fun fit => (RedisUpdate.good_iff parsed).mp fit.good,fun alive => ⟨usable,(RedisUpdate.good_iff parsed).mpr alive⟩⟩
      simp [Route.Serves,Route.setCertificate,status,fit]
    | missing renewal message =>
      refine iff_of_false ?_ (unusable (by simp [verdict]))
      simp [Route.Serves,Route.setCertificate]
    | crashed =>
      refine iff_of_false ?_ (unusable (by simp [verdict]))
      simp

theorem update_ends_iff (route : Route K) (w : World RedisHash)
    (resolved : m.supplier route.provider = .ok (supplier,name)) :
    (∃ after, ((m.asProvider crypto (RedisStore.asStore json)).updateCert (answers,fallback) route
        w).2 = some after ∧ after.Serves expiry answers.now) ↔
      (route.redisUpdate supplier name answers fallback).Ends json crypto expiry
        (m.getLocked crypto (RedisStore.asStore json) answers supplier name route.certificateNames.1
          route.certificateNames.2
          (w.call (.lockCertificate route.certificateNames.1 route.certificateNames.2))) := by
  unfold CertificateProvider.updateCert
  dsimp only [Manager.asProvider,Manager.getCertificate]
  rw [resolved]
  dsimp only
  generalize m.getLocked crypto (RedisStore.asStore json) answers supplier name
    route.certificateNames.1 route.certificateNames.2
    (w.call (.lockCertificate route.certificateNames.1 route.certificateNames.2)) = result
  obtain ⟨after,outcome⟩ := result
  cases outcome with
  | ok key =>
    have status : CertificateStatus.good.served = true := rfl
    simp [RedisUpdate.Ends,Route.Serves,Route.setCertificate,status,Route.redisUpdate,RedisUpdate.now]
  | err message => exact load_serves_iff route _ resolved
  | crashed => simp [RedisUpdate.Ends]

/-- Exactly when an update on the Redis store leaves the route a usable certificate,
whatever the route held before. -/
theorem update_serves_iff (json : Json) (crypto : Crypto K) (expiry : K → Int) (m : Manager)
    (answers : Answers (Except String Listing) (Except String Listing × Exec))
    (fallback : Except String Listing) (route : Route K) (w : World RedisHash)
    (coherent : RedisStore.Coherent json w.store)
    (plain : ∀ supplier name, m.supplier route.provider = .ok (supplier,name) →
      (route.redisUpdate supplier name answers fallback).PlainRequest)
    (asked : ∀ d, answers.issued = .ok d → d.isFor route.certificateNames.1 route.certificateNames.2 = true) :
    (∃ after, ((m.asProvider crypto (RedisStore.asStore json)).updateCert (answers,fallback) route
        w).2 = some after ∧ after.Serves expiry answers.now) ↔
      ∃ supplier name, m.supplier route.provider = .ok (supplier,name) ∧
        (route.redisUpdate supplier name answers fallback).Survives json crypto expiry w.store := by
  cases resolved : m.supplier route.provider with
  | error message =>
    simp [CertificateProvider.updateCert,Manager.asProvider,Manager.getCertificate,CertificateProvider.loadCertificate,
      Manager.getExistingCertificate,resolved,Route.Serves,Route.setCertificate]
  | ok chosen =>
    obtain ⟨supplier,name⟩ := chosen
    have locked : (route.redisUpdate supplier name answers fallback).Ends json crypto expiry
        (m.getLocked crypto (RedisStore.asStore json) answers supplier name route.certificateNames.1
          route.certificateNames.2
          (w.call (.lockCertificate route.certificateNames.1 route.certificateNames.2))) ↔
        (route.redisUpdate supplier name answers fallback).Survives json crypto expiry w.store :=
      RedisUpdate.ends_getLocked m coherent (plain supplier name resolved) asked
    rw [update_ends_iff route w resolved,locked]
    constructor
    · exact fun survives => ⟨supplier,name,rfl,survives⟩
    · rintro ⟨supplier',name',same,survives⟩
      obtain ⟨rfl,rfl⟩ := Prod.mk.inj (Except.ok.inj same)
      exact survives

end Routes

namespace Sample

def served : Route String := route.setCertificate (some ⟨certPem,[]⟩) .good

def timeouts : Answers (Except String Listing) (Except String Listing × Exec) :=
  { now := leafNotAfter - 168 * hour,lookup := .error "i/o timeout",renewalInfo := .error "timeout"
    saveRenewalInfo := (.error "i/o timeout",.ok),issued := .error "timeout"
    issuedRenewalInfo := .error "timeout",saveIssued := (.error "i/o timeout",.ok)
    staple := .error "timeout",saveStaple := (.error "i/o timeout",.ok) }

/-- A route with a certificate good for another week loses it to two failed reads,
whatever Redis holds. -/
theorem timeouts_withdraw :
    served.Serves (fun _ => leafNotAfter) timeouts.now ∧
    ∀ (json : Json) (w : World RedisHash), ∃ after,
      ((manager.asProvider crypto (RedisStore.asStore json)).updateCert
        (timeouts,.error "i/o timeout") served w).2 = some after ∧
      after.certificate = none ∧ after.certificateStatus = .missing := by
  refine ⟨⟨_,rfl,by decide,rfl⟩,fun json w => ⟨served.setCertificate none .missing,?_,rfl,rfl⟩⟩
  have known : manager.supplier served.provider = .ok (⟨24 * 30 * hour,24 * hour⟩,"lego") :=
    Manager.sample_supplier
  simp [CertificateProvider.updateCert,Manager.asProvider,Manager.getCertificate,known,Manager.getLocked,Manager.lookup,
    RedisStore.asStore,RedisStore.reply,RedisStore.getCertificate,timeouts,World.take,
    Manager.obtain,CertificateProvider.loadCertificate,Manager.getExistingCertificate]

def heldEncoding : Json := .ofTable [(stored 0 0,storedText)] [] (by decide +kernel) noArrays

def heldWorld : World RedisHash :=
  { heap := fun _ => stored 0 0,fresh := 0,store := .singleton "lego;example.com" storedText,calls := [] }

theorem heldWorld_entries (entry : Entry) :
    entry ∈ heldWorld.store.entries ↔ entry = ⟨"lego;example.com",storedText⟩ := List.mem_singleton

theorem held_decodes : heldEncoding.unmarshal storedText = .ok (stored 0 0) :=
  heldEncoding.round_trip (by simp [heldEncoding,Json.ofTable,encode,Expiring.find])

theorem heldWorld_coherent : RedisStore.Coherent heldEncoding heldWorld.store := by
  intro entry member
  obtain rfl := (heldWorld_entries entry).mp member
  exact ⟨stored 0 0,held_decodes,by decide,by decide⟩

/-- When the second read gets through, the route keeps a certificate. -/
theorem second_read_serves : ∃ after,
    ((manager.asProvider crypto (RedisStore.asStore heldEncoding)).updateCert
      (timeouts,.ok ⟨id,.refl⟩) served heldWorld).2 = some after ∧
    after.Serves (fun _ => leafNotAfter) timeouts.now := by
  refine (update_serves_iff heldEncoding crypto _ manager timeouts _ served heldWorld heldWorld_coherent ?_
    (fun d issued => by cases issued)).mpr ⟨_,_,Manager.sample_supplier,.missing ?_ (.refused ⟨⟨_,rfl⟩,stored 0 0,?_,?_⟩)⟩
  · intro supplier name resolved
    obtain ⟨rfl,rfl⟩ := Prod.mk.inj (Except.ok.inj (Manager.sample_supplier.symm.trans resolved))
    exact (by decide : ∀ s ∈ ["lego","example.com"],RedisStore.Plain s)
  · rintro d ⟨⟨listing,read⟩,_⟩
    cases read
  · exact ⟨⟨_,(heldWorld_entries _).mpr rfl,held_decodes⟩,.inl (by decide)⟩
  · exact ⟨stored_usable 0 0 (by decide),certPem,crypto_pair,by decide⟩

end Sample

end Centauri
