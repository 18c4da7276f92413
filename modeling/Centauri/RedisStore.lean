import Centauri.Store
import Mathlib.Data.List.AList

/-! The shared store: one Redis hash of JSON texts, addressed by joined names.
Each Redis command is atomic; an `HGETALL` reply lists the hash in any order. -/
namespace Centauri

abbrev Entry := Sigma fun _ : String => String

/-- A Redis hash. Fields are unique by construction. -/
abbrev RedisHash := AList fun _ : String => String

instance : DecidableEq RedisHash := fun a b =>
  decidable_of_iff (a.entries = b.entries) AList.ext_iff.symm

/-- How the `EXEC` of a save went: an error may be reported after it took effect. -/
inductive Exec where
  | ok
  | failed (message : String)
  | applied (message : String)
  deriving DecidableEq, Repr

namespace RedisStore

def certificateKey (provider subjectName : String) (altNames : List String) : String :=
  ";".intercalate ([provider,subjectName] ++ sortedCopy altNames)

def namesKey (subjectName : String) (altNames : List String) : String :=
  ";".intercalate ([subjectName] ++ sortedCopy altNames)

def lockKey (keyPrefix subjectName : String) (altNames : List String) : String :=
  keyPrefix ++ ":lock:" ++ namesKey subjectName altNames

def field (d : Details) : String := certificateKey d.provider d.subject d.altNames

def Plain (s : String) : Prop := ';' ∉ s.toList

instance (s : String) : Decidable (Plain s) := inferInstanceAs (Decidable (';' ∉ s.toList))

theorem join_injective (a b : List String) (ha : a ≠ []) (hb : b ≠ [])
    (plainA : ∀ s ∈ a, Plain s) (plainB : ∀ s ∈ b, Plain s)
    (same : ";".intercalate a = ";".intercalate b) : a = b := by
  have chars := congrArg String.toList same
  rw [String.toList_intercalate,String.toList_intercalate] at chars
  have split (l : List String) (ne : l ≠ []) (plain : ∀ s ∈ l, Plain s) :
      (";".toList.intercalate (l.map String.toList)).splitOn ';' = l.map String.toList := by
    apply List.splitOn_intercalate
    · intro t member
      obtain ⟨s,hs,rfl⟩ := List.mem_map.mp member
      exact plain s hs
    · simpa using ne
  have maps : a.map String.toList = b.map String.toList := by
    rw [← split a ha plainA,← split b hb plainB,chars]
  exact List.map_injective_iff.mpr (fun _ _ => String.toList_inj.mp) maps

theorem plain_sortedCopy (plain : ∀ s ∈ front ++ names, Plain s) :
    ∀ s ∈ front ++ sortedCopy names, Plain s := by
  intro s member
  apply plain
  simpa only [List.mem_append,(sortedCopy_perm names).mem_iff] using member

/-- Joined keys of plain strings identify the provider and the unordered names. -/
theorem certificateKey_eq_iff (plain : ∀ s ∈ provider :: subject :: altNames, Plain s)
    (plain' : ∀ s ∈ provider' :: subject' :: altNames', Plain s) :
    certificateKey provider subject altNames = certificateKey provider' subject' altNames' ↔
      (provider,subject,sortedCopy altNames) = (provider',subject',sortedCopy altNames') := by
  constructor
  · intro same
    have lists := join_injective _ _ (by simp) (by simp) (plain_sortedCopy plain) (plain_sortedCopy plain') same
    simpa using lists
  · intro same
    simp only [Prod.mk.injEq] at same
    simp only [certificateKey,same]

/-- A lock's key does not name the provider: every supplier's request for the same names
waits for the same lock. -/
theorem namesKey_eq_iff (plain : ∀ s ∈ subject :: altNames, Plain s)
    (plain' : ∀ s ∈ subject' :: altNames', Plain s) :
    namesKey subject altNames = namesKey subject' altNames' ↔
      subject = subject' ∧ sortedCopy altNames = sortedCopy altNames' := by
  constructor
  · intro same
    have lists := join_injective _ _ (by simp) (by simp) (plain_sortedCopy plain) (plain_sortedCopy plain') same
    simpa using lists
  · rintro ⟨rfl,sorted⟩
    simp only [namesKey,sorted]

/-- Keys of plain strings say what `IsFor` says, written as a separate comparison. -/
theorem keys_identify (d : Details) (subject : String) (altNames : List String)
    (plain : ∀ s ∈ d.subject :: d.altNames, Plain s) (plain' : ∀ s ∈ subject :: altNames, Plain s) :
    (∀ provider provider', Plain provider → Plain provider' →
      (certificateKey provider d.subject d.altNames = certificateKey provider' subject altNames ↔
        provider = provider' ∧ d.isFor subject altNames = true)) ∧
    (namesKey d.subject d.altNames = namesKey subject altNames ↔ d.isFor subject altNames = true) := by
  have names : d.isFor subject altNames = true ↔
      d.subject = subject ∧ sortedCopy d.altNames = sortedCopy altNames := by
    rw [Details.isFor_iff,sortedCopy_eq_iff]
  constructor
  · intro provider provider' plainProvider plainProvider'
    rw [certificateKey_eq_iff (List.forall_mem_cons.mpr ⟨plainProvider,plain⟩)
      (List.forall_mem_cons.mpr ⟨plainProvider',plain'⟩),names,Prod.mk.injEq,Prod.mk.injEq]
  · rw [namesKey_eq_iff plain plain',names]

/-- Repeated and empty names count: the same set with another multiplicity is another key. -/
theorem keys_identify_repeated :
    (∀ provider provider', Plain provider → Plain provider' →
      (certificateKey provider "a" ["","b","b"] = certificateKey provider' "a" ["b","",""] ↔
        provider = provider' ∧ (Sample.bare "" "a" ["","b","b"] 0).isFor "a" ["b","",""] = true)) ∧
    (namesKey "a" ["","b","b"] = namesKey "a" ["b","",""] ↔
      (Sample.bare "" "a" ["","b","b"] 0).isFor "a" ["b","",""] = true) :=
  keys_identify (Sample.bare "" "a" ["","b","b"] 0) "a" ["b","",""] (by decide) (by decide)

def PlainNames (d : Details) : Prop := ∀ s ∈ d.provider :: d.subject :: d.altNames, Plain s

instance (d : Details) : Decidable (PlainNames d) :=
  inferInstanceAs (Decidable (∀ s ∈ d.provider :: d.subject :: d.altNames, Plain s))

theorem field_eq_iff (plain : PlainNames d) (plain' : PlainNames e) :
    field d = field e ↔ d.key = e.key :=
  certificateKey_eq_iff plain plain'

variable (json : Json)

/-- Entries that cannot be decoded are skipped. -/
def allCertificates (stored : List Entry) : List Details :=
  stored.filterMap fun entry => (json.unmarshal entry.2).toOption

/-- A failed read is answered as if nothing were stored. -/
def getCertificate (reply : Except String (List Entry)) (provider subjectName : String)
    (altNames : List String) : Option Details :=
  match reply with
  | .error _ => none
  | .ok stored => selectCertificate id provider subjectName altNames none (allCertificates json stored)

def prunable (now : Int) (raw : String) : Bool :=
  match json.unmarshal raw with
  | .error _ => true
  | .ok existing => !existing.validFor now 0

def pruneArgs (now : Int) (stored : List Entry) : List Entry :=
  stored.filter fun entry => prunable json now entry.2

/-- Fields are deleted only while they still hold the value that was read. -/
def pruneCertificatesScript : List Entry → RedisHash → RedisHash
  | [], hash => hash
  | arg :: rest, hash =>
    if hash.lookup arg.1 = some arg.2 then pruneCertificatesScript rest (hash.erase arg.1)
    else pruneCertificatesScript rest hash

def transaction (args : List Entry) (d : Details) (raw : String) (hash : RedisHash) : RedisHash :=
  (pruneCertificatesScript args hash).insert (field d) raw

/-- One client's save with no other command in between. -/
def saveCertificate (now : Int) (reply : Except String (List Entry)) (exec : Exec) (d : Details)
    (hash : RedisHash) : RedisHash × Option String :=
  match reply with
  | .error message => (hash,some message)
  | .ok stored =>
    match json.marshal d with
    | .error message => (hash,some message)
    | .ok raw =>
      match exec with
      | .ok => (transaction (pruneArgs json now stored) d raw hash,none)
      | .failed message => (hash,some message)
      | .applied message => (transaction (pruneArgs json now stored) d raw hash,some message)

/-- The script removes exactly the fields whose current value was passed along with them. -/
theorem pruneCertificatesScript_lookup (args : List Entry) (hash : RedisHash) (f : String) :
    (pruneCertificatesScript args hash).lookup f =
      (hash.lookup f).filter fun raw => decide ((⟨f,raw⟩ : Entry) ∉ args) := by
  induction args generalizing hash with
  | nil => cases found : hash.lookup f <;> simp [pruneCertificatesScript,found,Option.filter]
  | cons arg rest ih =>
    unfold pruneCertificatesScript
    split
    next current =>
      rw [ih]
      by_cases same : f = arg.1
      · subst f
        have member : (⟨arg.1,arg.2⟩ : Entry) ∈ arg :: rest := List.mem_cons_self
        simp [current,Option.filter,member]
      · rw [AList.lookup_erase_ne same]
        cases found : hash.lookup f with
        | none => rfl
        | some raw =>
          have other : (⟨f,raw⟩ : Entry) ≠ arg := fun eq => same (congrArg Sigma.fst eq)
          simp [Option.filter,other]
    next stale =>
      rw [ih]
      cases found : hash.lookup f with
      | none => rfl
      | some raw =>
        have other : (⟨f,raw⟩ : Entry) ≠ arg := by
          rintro rfl
          exact stale found
        simp [Option.filter,other]

variable {hash : RedisHash}

theorem transaction_lookup_self : (transaction args d raw hash).lookup (field d) = some raw :=
  AList.lookup_insert _

theorem transaction_lookup_other (apart : f ≠ field d) :
    (transaction args d raw hash).lookup f =
      (hash.lookup f).filter fun text => decide ((⟨f,text⟩ : Entry) ∉ args) := by
  rw [transaction,AList.lookup_insert_ne apart,pruneCertificatesScript_lookup]

/-- Pruning on a current reply leaves what is still worth keeping. -/
theorem transaction_pruned (reply : stored.Perm hash.entries) (apart : f ≠ field d) :
    (transaction (pruneArgs json now stored) d raw hash).lookup f =
      (hash.lookup f).filter fun text => !prunable json now text := by
  rw [transaction_lookup_other apart]
  cases found : hash.lookup f with
  | none => rfl
  | some text =>
    have member : (⟨f,text⟩ : Entry) ∈ stored := reply.mem_iff.mpr (AList.mem_lookup_iff.mp found)
    by_cases old : prunable json now text = true <;>
      simp [Option.filter,pruneArgs,List.mem_filter,member,old]

end RedisStore

end Centauri
