import Centauri.Store

/-! The file-backed store. Memory changes before the file is written, so a failed
write still leaves the new contents in memory. -/
namespace Centauri

inductive ReadFile where
  | notExist
  | failed (message : String)
  | contents (text : String)

/-- Outcome of `os.WriteFile`; a failed write may leave the file truncated. -/
inductive WriteFile where
  | ok
  | failed (message : String) (left : Option String)

/-- `file` is what the store's path holds, or `none` while nothing exists there. -/
structure JsonStore (ρ : Type) where
  certificates : List ρ
  file : Option String
  deriving DecidableEq, Repr

namespace JsonStore

variable {ρ : Type} (json : Json) (deref : ρ → Details)

def empty : JsonStore ρ := ⟨[],none⟩

def readFile (j : JsonStore ρ) : ReadFile :=
  match j.file with
  | none => .notExist
  | some text => .contents text

def load : ReadFile → Except String (List Details)
  | .notExist => .ok []
  | .failed message => .error message
  | .contents text => json.unmarshalList text

/-- Loaded entries are fresh, so contents stand for pointers. -/
def newStore (read : ReadFile) : Except String (JsonStore Details) :=
  match load json read with
  | .error message => .error message
  | .ok certificates => .ok ⟨certificates,
      match read with | .contents text => some text | _ => none⟩

def getCertificate (provider subject : String) (altNames : List String) (j : JsonStore ρ) :
    Option ρ :=
  selectCertificate deref provider subject altNames none j.certificates

def removeCertificate (provider subject : String) (altNames : List String)
    (certificates : List ρ) : List ρ :=
  certificates.eraseP (fun r => (deref r).isFor subject altNames && (deref r).provider == provider)

def pruneCertificates (now : Int) (certificates : List ρ) : List ρ :=
  certificates.filter (fun r => (deref r).validFor now 0)

def save (now : Int) (write : WriteFile) (j : JsonStore ρ) : JsonStore ρ × Option String :=
  let certificates := pruneCertificates deref now j.certificates
  match json.marshalList (certificates.map deref) with
  | .error message => (⟨certificates,j.file⟩,some message)
  | .ok text =>
    match write with
    | .failed message left => (⟨certificates,left⟩,some message)
    | .ok => (⟨certificates,some text⟩,none)

def saveCertificate (now : Int) (write : WriteFile) (r : ρ) (j : JsonStore ρ) :
    JsonStore ρ × Option String :=
  let d := deref r
  save json deref now write
    { j with certificates := removeCertificate deref d.provider d.subject d.altNames j.certificates ++ [r] }

/-- The calls `SaveCertificate(r)` at the listed times, each returning no error. -/
inductive Saved : List (Int × ρ) → JsonStore ρ → Prop where
  | nil : Saved [] empty
  | snoc : Saved saves j → saveCertificate json deref now write r j = (next,none) →
      Saved (saves ++ [(now,r)]) next

/-- Memory does not depend on whether the file could be written. -/
theorem save_certificates (now : Int) (write : WriteFile) (j : JsonStore ρ) :
    (save json deref now write j).1.certificates = pruneCertificates deref now j.certificates := by
  unfold save
  dsimp only
  split
  · rfl
  split <;> rfl

theorem validFor_eq_live (now : Int) :
    (fun r => (deref r).validFor now 0) = Expiring.live (expiryOf deref) now := by
  funext r
  rw [Bool.eq_iff_iff]
  simp [expiryOf]

theorem saveCertificate_certificates (now : Int) (write : WriteFile) (r : ρ) (j : JsonStore ρ) :
    (saveCertificate json deref now write r j).1.certificates =
      Expiring.save (keyOf deref) (expiryOf deref) j.certificates (now,r) := by
  have same : (fun q => (deref q).isFor (deref r).subject (deref r).altNames &&
      (deref q).provider == (deref r).provider) =
      fun q => decide (keyOf deref q = keyOf deref r) := by
    funext q
    rw [Bool.eq_iff_iff]
    simp only [Bool.and_eq_true,beq_iff_eq,decide_eq_true_eq]
    exact (and_comm.trans (Details.key_eq_key_iff (deref q) (deref r)).symm)
  rw [saveCertificate,save_certificates,pruneCertificates,removeCertificate,same,validFor_eq_live]
  rfl

/-- A save that reports no error has written exactly what it holds. -/
theorem saveCertificate_file (done : saveCertificate json deref now write r j = (next,none)) :
    ∃ text, json.marshalList (next.certificates.map deref) = .ok text ∧ next.file = some text := by
  unfold saveCertificate save at done
  cases encoded : json.marshalList ((pruneCertificates deref now
      (removeCertificate deref (deref r).provider (deref r).subject (deref r).altNames
        j.certificates ++ [r])).map deref) with
  | error message => simp [encoded] at done
  | ok text =>
    cases write with
    | failed message left => simp [encoded] at done
    | ok =>
      simp only [encoded,Prod.mk.injEq,and_true] at done
      subst done
      exact ⟨text,encoded,rfl⟩

theorem Saved.certificates (saved : Saved json deref saves j) :
    j.certificates = Expiring.saveAll (keyOf deref) (expiryOf deref) saves := by
  induction saved with
  | nil => rfl
  | @snoc saves j now write r next _ done ih =>
    rw [Expiring.saveAll_snoc,← ih]
    have := saveCertificate_certificates json deref now write r j
    rwa [done] at this

theorem Saved.distinct (saved : Saved json deref saves j) :
    Expiring.Distinct (keyOf deref) j.certificates :=
  saved.certificates ▸ Expiring.saveAll_distinct saves

theorem Saved.reload (saved : Saved json deref saves j) :
    ∃ reloaded, newStore json j.readFile = .ok reloaded ∧
      reloaded.certificates = j.certificates.map deref := by
  cases saved with
  | nil => exact ⟨⟨[],none⟩,rfl,rfl⟩
  | snoc _ done =>
    obtain ⟨text,encoded,file⟩ := saveCertificate_file json deref done
    refine ⟨⟨j.certificates.map deref,some text⟩,?_,rfl⟩
    simp [newStore,load,readFile,file,json.list_round_trip encoded]

def finalTime (saves : List (Int × ρ)) : Int := ((saves.map Prod.fst).getLast?).getD 0

/-- The last saved certificate of a provider for some names, if it outlives the last save. -/
def lastValid (provider subject : String) (altNames : List String) (saves : List (Int × ρ)) :
    Option ρ :=
  ((saves.map Prod.snd).filter fun r =>
    (deref r).provider == provider && (deref r).isFor subject altNames).getLast?.filter
      fun r => decide ((deref r).notAfter > finalTime saves)

theorem lastValid_eq_find (saves : List (Int × ρ))
    (ordered : (saves.map Prod.fst).Pairwise (· ≤ ·)) (provider subject : String)
    (altNames : List String) :
    lastValid deref provider subject altNames saves =
      Expiring.find (keyOf deref) (provider,subject,sortedCopy altNames)
        (Expiring.saveAll (keyOf deref) (expiryOf deref) saves) := by
  have same : (fun r => (deref r).provider == provider && (deref r).isFor subject altNames) =
      fun r => decide (keyOf deref r = (provider,subject,sortedCopy altNames)) := by
    funext r
    rw [Bool.eq_iff_iff]
    simp [keyOf_eq_iff]
  cases saves using List.reverseRecOn with
  | nil => rfl
  | append_singleton saves entry =>
    obtain ⟨now,r⟩ := entry
    have alive : (fun q => decide ((deref q).notAfter > now)) =
        Expiring.live (expiryOf deref) now := by
      rw [← validFor_eq_live]
      simp [Details.validFor]
    have last : finalTime (saves ++ [(now,r)]) = now := by simp [finalTime]
    rw [Expiring.find_saveAll _ ordered,lastValid,same,last,alive]
    rfl

/-- The file store is a map from provider and unordered names to the last saved
certificate, whose entries expire, with certificates of no provider as a second choice. -/
theorem saved_lookup (saves : List (Int × ρ)) (j : JsonStore ρ)
    (saved : Saved json deref saves j) (ordered : (saves.map Prod.fst).Pairwise (· ≤ ·)) :
    j.certificates.Pairwise (fun r q => ¬((deref r).provider = (deref q).provider ∧
      (deref r).isFor (deref q).subject (deref q).altNames = true ∧
      (deref q).isFor (deref r).subject (deref r).altNames = true)) ∧
    (∀ provider subject altNames, j.getCertificate deref provider subject altNames =
      (lastValid deref provider subject altNames saves <|>
        lastValid deref "" subject altNames saves)) ∧
    ∃ reloaded, newStore json j.readFile = .ok reloaded ∧
      ∀ provider subject altNames, reloaded.getCertificate id provider subject altNames =
        (j.getCertificate deref provider subject altNames).map deref := by
  have distinct := saved.distinct
  refine ⟨?_,?_,?_⟩
  · refine List.Pairwise.imp ?_ (List.pairwise_map.mp distinct)
    rintro r q ne ⟨provider,named,_⟩
    exact ne ((Details.key_eq_key_iff _ _).mpr ⟨provider,named⟩)
  · intro provider subject altNames
    rw [getCertificate,selectCertificate_distinct deref _ _ _ _ _ distinct,saved.certificates,
      lastValid_eq_find deref saves ordered,lastValid_eq_find deref saves ordered]
    simp
  · obtain ⟨reloaded,loaded,contents⟩ := saved.reload
    refine ⟨reloaded,loaded,?_⟩
    intro provider subject altNames
    rw [getCertificate,getCertificate,contents,selectCertificate_map]
    rfl

theorem sample_saved : Saved Sample.json id Sample.history
    ⟨[Sample.renewed,Sample.legacy],
      some ("[" ++ Sample.renewedText ++ "," ++ Sample.legacyText ++ "]")⟩ := by
  have first : Saved Sample.json id [(10,Sample.issued)]
      ⟨[Sample.issued],some ("[" ++ Sample.issuedText ++ "]")⟩ :=
    Saved.nil.snoc (show saveCertificate Sample.json id 10 .ok Sample.issued empty = _ by decide +kernel)
  have second : Saved Sample.json id [(10,Sample.issued),(20,Sample.renewed)]
      ⟨[Sample.renewed],some ("[" ++ Sample.renewedText ++ "]")⟩ :=
    first.snoc (show saveCertificate Sample.json id 20 .ok Sample.renewed _ = _ by decide +kernel)
  exact second.snoc (show saveCertificate Sample.json id 30 .ok Sample.legacy _ = _ by decide +kernel)

/-- After a restart the renewed certificate answers for its provider and the bare one for others. -/
theorem sample_lookup : ∃ j reloaded, Saved Sample.json id Sample.history j ∧
    newStore Sample.json j.readFile = .ok reloaded ∧
    reloaded.getCertificate id "lego" "example.com" ["a","b"] = some Sample.renewed ∧
    reloaded.getCertificate id "selfsigned" "example.com" ["a","b"] = some Sample.legacy := by
  obtain ⟨_,lookup,reloaded,loaded,same⟩ :=
    saved_lookup Sample.json id Sample.history _ sample_saved (by decide)
  refine ⟨_,reloaded,sample_saved,loaded,?_,?_⟩
  · rw [same,lookup]
    decide
  · rw [same,lookup]
    decide

end JsonStore

end Centauri
