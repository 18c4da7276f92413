import Mathlib.Data.List.Sort
import Mathlib.Data.String.Basic

/-! Stored certificates and the questions asked of them. Times are nanoseconds
since the zero time, so `IsZero` is equality with 0, and durations are their
differences. The clock is an argument wherever the source reads `time.Now()`.
PEM, X.509 and TLS parsing stay outside. -/
namespace Centauri

/-- A Go call returns a value, returns an error, or takes the process down. -/
inductive Outcome (α : Type) where
  | ok (value : α)
  | err (message : String)
  | crashed
  deriving DecidableEq, Repr

def Outcome.ofExcept : Except String α → Outcome α
  | .ok value => .ok value
  | .error message => .err message

/-- Sorted by `sort.Strings`: equal strings are indistinguishable, so stability is moot. -/
def sortedCopy (names : List String) : List String := names.insertionSort (· ≤ ·)

theorem sortedCopy_perm (names : List String) : (sortedCopy names).Perm names :=
  List.perm_insertionSort _ names

theorem sortedCopy_eq_iff (a b : List String) : sortedCopy a = sortedCopy b ↔ a.Perm b := by
  constructor
  · intro same
    exact (sortedCopy_perm a).symm.trans (same ▸ sortedCopy_perm b)
  · intro perm
    have sorted (names : List String) : (sortedCopy names).Pairwise (· ≤ ·) :=
      List.pairwise_insertionSort _ names
    refine List.Perm.eq_of_pairwise ?_ (sorted a) (sorted b) ?_
    · exact fun _ _ _ _ le ge => le_antisymm le ge
    · exact (sortedCopy_perm a).trans (perm.trans (sortedCopy_perm b).symm)

/-- The tagged fields. The unexported `requiresStaple` memo is recomputed instead:
`certificate` is never reassigned once a value exists. -/
structure Details where
  provider : String
  issuer : String
  privateKey : String
  certificate : String
  subject : String
  altNames : List String
  notAfter : Int
  ocspResponse : List UInt8
  nextOcspUpdate : Int
  ariNextUpdate : Int
  ariRenewalTime : Int
  ariExplanation : String
  deriving DecidableEq, Repr

/-- The libraries that read certificate text. `K` is the parsed chain and private key. -/
structure Crypto (K : Type) where
  x509KeyPair : String → String → Except String K
  /-- `pem.Decode` and `x509.ParseCertificate`: no PEM block at all, a block that does not
  parse, or the dotted identifiers of the extensions. -/
  extensions : String → Option (Except String (List String))
  /-- `tls.X509KeyPair` takes its chain from PEM blocks, so it accepts no text without one. -/
  pair_decodes : x509KeyPair certificate privateKey = .ok pair → (extensions certificate).isSome

structure TlsCertificate (K : Type) where
  pair : K
  ocspStaple : List UInt8
  deriving DecidableEq, Repr

namespace Details

def validFor (now : Int) (period : Int) (d : Details) : Bool := decide (d.notAfter > now + period)

/-- ARI wins whenever a renewal time is known; the expiry is not consulted then. -/
def shouldRenew (now : Int) (minimumValidity : Int) (d : Details) : Bool :=
  if d.ariRenewalTime = 0 then !d.validFor now minimumValidity
  else decide (now > d.ariRenewalTime)

def hasStapleFor (now : Int) (period : Int) (d : Details) : Bool :=
  decide (d.nextOcspUpdate > now + period)

def isFor (d : Details) (subject : String) (altNames : List String) : Bool :=
  if d.subject != subject || d.altNames.length != altNames.length then false
  else sortedCopy d.altNames == sortedCopy altNames

def keyPair (crypto : Crypto K) (d : Details) : Except String (TlsCertificate K) :=
  match crypto.x509KeyPair d.certificate d.privateKey with
  | .error e => .error e
  | .ok pair => .ok ⟨pair,d.ocspResponse⟩

/-- `none` is the nil dereference when the text has no PEM block at all. -/
def requiresStaple (crypto : Crypto K) (d : Details) : Option Bool :=
  match crypto.extensions d.certificate with
  | none => none
  | some (.error _) => some false
  | some (.ok identifiers) => some (identifiers.any (· == "1.3.6.1.5.5.7.1.24"))

@[simp] theorem validFor_iff : validFor now period d = true ↔ now + period < d.notAfter := by
  simp [validFor]

@[simp] theorem hasStapleFor_iff :
    hasStapleFor now period d = true ↔ now + period < d.nextOcspUpdate := by
  simp [hasStapleFor]

theorem isFor_iff (d : Details) (subject : String) (altNames : List String) :
    d.isFor subject altNames = true ↔ d.subject = subject ∧ d.altNames.Perm altNames := by
  unfold isFor
  split
  next differs =>
    constructor
    · intro h; cases h
    · rintro ⟨rfl,perm⟩
      simp [perm.length_eq] at differs
  next agrees =>
    simp only [Bool.or_eq_true,bne_iff_ne,not_or,not_not] at agrees
    simp [beq_iff_eq,sortedCopy_eq_iff,agrees.1]

/-- A staple sufficient for a longer period is sufficient for a shorter one. -/
theorem hasStapleFor_mono {period longer : Int} (le : period ≤ longer)
    (has : hasStapleFor now longer d = true) :
    hasStapleFor now period d = true := by
  rw [hasStapleFor_iff] at *
  omega

/-- Without ARI data a certificate not yet due is still valid. -/
theorem valid_of_not_due {minimum : Int} (nonneg : 0 ≤ minimum) {d : Details}
    (noAri : d.ariRenewalTime = 0) (keep : shouldRenew now minimum d = false) : validFor now 0 d = true := by
  simp only [shouldRenew,noAri,if_true,Bool.not_eq_false'] at keep
  rw [validFor_iff] at *
  omega

def key (d : Details) : String × String × List String :=
  (d.provider,d.subject,sortedCopy d.altNames)

theorem key_eq_iff (d : Details) (provider subject : String) (altNames : List String) :
    d.key = (provider,subject,sortedCopy altNames) ↔
      d.provider = provider ∧ d.isFor subject altNames = true := by
  simp [key,isFor_iff,sortedCopy_eq_iff]

theorem key_eq_key_iff (d e : Details) :
    d.key = e.key ↔ d.provider = e.provider ∧ d.isFor e.subject e.altNames = true :=
  key_eq_iff d e.provider e.subject e.altNames

theorem requiresStaple_isSome {crypto : Crypto K} {d : Details} {cert : TlsCertificate K}
    (h : d.keyPair crypto = .ok cert) :
    (d.requiresStaple crypto).isSome := by
  unfold keyPair at h
  cases hp : crypto.x509KeyPair d.certificate d.privateKey with
  | error e => simp [hp] at h
  | ok pair =>
    obtain ⟨parsed,decoded⟩ := Option.isSome_iff_exists.mp (crypto.pair_decodes hp)
    cases parsed <;> simp [requiresStaple,decoded]

end Details

end Centauri
