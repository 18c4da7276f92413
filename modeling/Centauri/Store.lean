import Centauri.Details
import Centauri.Expiring

/-! What the two certificate stores share: the lookup loop and the JSON encoding.
An entry is a pointer `ρ` whose contents `deref` reads, because the file store
hands its own entries to callers. -/
namespace Centauri

/-- `encoding/json` on the tagged fields, one certificate or the whole array. -/
structure Json where
  marshal : Details → Except String String
  unmarshal : String → Except String Details
  marshalList : List Details → Except String String
  unmarshalList : String → Except String (List Details)
  round_trip : marshal d = .ok text → unmarshal text = .ok d
  list_round_trip : marshalList ds = .ok text → unmarshalList text = .ok ds

def encode [DecidableEq α] (table : List (α × String)) (a : α) : Except String String :=
  match Expiring.find Prod.fst a table with
  | some row => .ok row.2
  | none => .error "json: unsupported value"

def decode (table : List (α × String)) (text : String) : Except String α :=
  match Expiring.find Prod.snd text table with
  | some row => .ok row.1
  | none => .error "json: cannot unmarshal"

theorem decode_encode [DecidableEq α] {table : List (α × String)} (a : α)
    (texts : Expiring.Distinct Prod.snd table) (encoded : encode table a = .ok text) :
    decode table text = .ok a := by
  unfold encode at encoded
  cases found : Expiring.find Prod.fst a table with
  | none => simp [found] at encoded
  | some row =>
    simp only [found,Except.ok.injEq] at encoded
    have member : row ∈ table := List.mem_of_find?_eq_some found
    have value : row.1 = a := by simpa using List.find?_some found
    simp [decode,(Expiring.find_eq_some_iff texts).mpr ⟨member,encoded⟩,value]

/-- Encoding restricted to the listed values and texts, for runs on given certificates. -/
def Json.ofTable (singles : List (Details × String)) (arrays : List (List Details × String))
    (texts : Expiring.Distinct Prod.snd singles) (arrayTexts : Expiring.Distinct Prod.snd arrays) :
    Json where
  marshal := encode singles
  unmarshal := decode singles
  marshalList := encode arrays
  unmarshalList := decode arrays
  round_trip := decode_encode _ texts
  list_round_trip := decode_encode _ arrayTexts

namespace Sample

/-- The file of a store has arrays of certificates only. -/
theorem noneAlone : Expiring.Distinct Prod.snd ([] : List (Details × String)) := by decide

/-- A hash has none. -/
theorem noArrays : Expiring.Distinct Prod.snd ([] : List (List Details × String)) := by decide

def bare (provider subject : String) (altNames : List String) (notAfter : Int) : Details :=
  { provider := provider,issuer := "",privateKey := "",certificate := "",subject := subject
    altNames := altNames,notAfter := notAfter,ocspResponse := [],nextOcspUpdate := 0
    ariNextUpdate := 0,ariRenewalTime := 0,ariExplanation := "" }

def fullText (provider privateKey certificate subject altNames notAfter ariNextUpdate
    ariRenewalTime : String) : String :=
  "\x7b\"provider\":\"" ++ provider ++ "\",\"issuer\":\"\",\"privateKey\":\"" ++ privateKey ++
    "\",\"certificate\":\"" ++ certificate ++ "\",\"subject\":\"" ++ subject ++
    "\",\"altNames\":" ++ altNames ++ ",\"notAfter\":\"" ++ notAfter ++
    "\",\"ocspResponse\":null,\"nextOcspUpdate\":\"0001-01-01T00:00:00Z\"," ++
    "\"ariNextUpdate\":\"" ++ ariNextUpdate ++ "\",\"ariRenewalTime\":\"" ++ ariRenewalTime ++
    "\",\"ariExplanation\":\"\"\x7d"

def text (provider subject altNames notAfter : String) : String :=
  fullText provider "" "" subject altNames notAfter "0001-01-01T00:00:00Z" "0001-01-01T00:00:00Z"

def issued : Details := bare "lego" "example.com" ["a","b"] 100
def renewed : Details := bare "lego" "example.com" ["b","a"] 200
def legacy : Details := bare "" "example.com" ["a","b"] 300

def issuedText : String := text "lego" "example.com" "[\"a\",\"b\"]" "0001-01-01T00:00:00.0000001Z"
def renewedText : String := text "lego" "example.com" "[\"b\",\"a\"]" "0001-01-01T00:00:00.0000002Z"
def legacyText : String := text "" "example.com" "[\"a\",\"b\"]" "0001-01-01T00:00:00.0000003Z"

def json : Json :=
  .ofTable [(issued,issuedText),(renewed,renewedText),(legacy,legacyText)]
    [([issued],"[" ++ issuedText ++ "]"),([renewed],"[" ++ renewedText ++ "]"),
      ([renewed,legacy],"[" ++ renewedText ++ "," ++ legacyText ++ "]")]
    (by decide +kernel) (by decide +kernel)

def history : List (Int × Details) := [(10,issued),(20,renewed),(30,legacy)]

end Sample

variable {ρ : Type} (deref : ρ → Details)

/-- The loop of both `GetCertificate`s. An exact provider match returns at once; a
certificate without provider is remembered and overwritten by a later one. -/
def selectCertificate (provider subject : String) (altNames : List String) :
    Option ρ → List ρ → Option ρ
  | legacy, [] => legacy
  | legacy, r :: rest =>
    if !(deref r).isFor subject altNames then
      selectCertificate provider subject altNames legacy rest
    else if (deref r).provider == provider then some r
    else if (deref r).provider == "" then
      selectCertificate provider subject altNames (some r) rest
    else selectCertificate provider subject altNames legacy rest

def keyOf (r : ρ) : String × String × List String := (deref r).key

def expiryOf (r : ρ) : Int := (deref r).notAfter

theorem keyOf_eq_iff (r : ρ) (provider subject : String) (altNames : List String) :
    keyOf deref r = (provider,subject,sortedCopy altNames) ↔
      (deref r).provider = provider ∧ (deref r).isFor subject altNames = true :=
  Details.key_eq_iff ..

theorem distinct_contents {deref : ρ → Details} {entries : List ρ}
    (distinct : Expiring.Distinct (keyOf deref) entries) :
    Expiring.Distinct (keyOf id) (entries.map deref) := by
  rw [Expiring.Distinct,List.map_map]
  exact distinct

open Expiring in
/-- Among distinct certificates the loop is two independent lookups. -/
theorem selectCertificate_distinct (provider subject : String) (altNames : List String)
    (legacy : Option ρ) (entries : List ρ) (distinct : Distinct (keyOf deref) entries) :
    selectCertificate deref provider subject altNames legacy entries =
      (find (keyOf deref) (provider,subject,sortedCopy altNames) entries <|>
        find (keyOf deref) ("",subject,sortedCopy altNames) entries <|> legacy) := by
  induction entries generalizing legacy with
  | nil => simp [selectCertificate,find]
  | cons r rest ih =>
    obtain ⟨absent,later⟩ := List.nodup_cons.mp distinct
    have skip (p : String) (ne : keyOf deref r ≠ (p,subject,sortedCopy altNames)) :
        find (keyOf deref) (p,subject,sortedCopy altNames) (r :: rest) =
          find (keyOf deref) (p,subject,sortedCopy altNames) rest := by
      simp [find,ne]
    have hit (p : String) (eq : keyOf deref r = (p,subject,sortedCopy altNames)) :
        find (keyOf deref) (p,subject,sortedCopy altNames) (r :: rest) = some r := by
      simp [find,eq]
    unfold selectCertificate
    by_cases named : (deref r).isFor subject altNames = true
    · simp only [named,Bool.not_true,Bool.false_eq_true,if_false,beq_iff_eq]
      by_cases exact : (deref r).provider = provider
      · rw [if_pos exact,hit provider ((keyOf_eq_iff ..).mpr ⟨exact,named⟩)]
        rfl
      · rw [if_neg exact,skip provider (fun eq => exact ((keyOf_eq_iff ..).mp eq).1)]
        by_cases bare : (deref r).provider = ""
        · -- The remembered entry is the only one of its key, so nothing overwrites it.
          have key : keyOf deref r = ("",subject,sortedCopy altNames) :=
            (keyOf_eq_iff ..).mpr ⟨bare,named⟩
          have none : find (keyOf deref) ("",subject,sortedCopy altNames) rest = none := by
            cases found : find (keyOf deref) ("",subject,sortedCopy altNames) rest with
            | none => rfl
            | some q =>
              obtain ⟨member,same⟩ := (find_eq_some_iff later).mp found
              rw [key,← same] at absent
              exact absurd (List.mem_map_of_mem member) absent
          rw [if_pos bare,ih _ later,hit "" key,none]
          rfl
        · rw [if_neg bare,ih _ later,skip "" (fun eq => bare ((keyOf_eq_iff ..).mp eq).1)]
    · simp only [Bool.eq_false_iff.mpr named,Bool.not_false,if_true]
      rw [ih _ later,skip provider (fun eq => named ((keyOf_eq_iff ..).mp eq).2),
        skip "" (fun eq => named ((keyOf_eq_iff ..).mp eq).2)]

/-- The answer depends on which certificates are stored, not on their order. -/
theorem selectCertificate_congr (provider subject : String) (altNames : List String)
    {entries entries' : List ρ} (distinct : Expiring.Distinct (keyOf deref) entries)
    (distinct' : Expiring.Distinct (keyOf deref) entries')
    (same : ∀ r, r ∈ entries ↔ r ∈ entries') :
    selectCertificate deref provider subject altNames none entries =
      selectCertificate deref provider subject altNames none entries' := by
  rw [selectCertificate_distinct deref _ _ _ _ _ distinct,
    selectCertificate_distinct deref _ _ _ _ _ distinct',
    Expiring.find_congr distinct distinct' same,Expiring.find_congr distinct distinct' same]

/-- Reading the chosen pointer commutes with choosing among the contents. -/
theorem selectCertificate_map (provider subject : String) (altNames : List String)
    (legacy : Option ρ) (entries : List ρ) :
    (selectCertificate deref provider subject altNames legacy entries).map deref =
      selectCertificate id provider subject altNames (legacy.map deref) (entries.map deref) := by
  induction entries generalizing legacy with
  | nil => rfl
  | cons r rest ih =>
    simp only [selectCertificate,List.map_cons,id_eq]
    split
    · exact ih legacy
    split
    · rfl
    split
    · exact ih (some r)
    · exact ih legacy

end Centauri
