import Centauri.Issuance

/-! What the shared hash holds for one target, and what saves do to it: no other save can
remove or replace a certificate that is still valid, and every lookup finds it. -/
namespace Centauri

/-- A certificate without its ARI data, which refreshes change. -/
def Details.sansAri (d : Details) : Details := d.withRenewalInfo ⟨0,0,""⟩

theorem isFor_perm (d : Details) (perm : altNames.Perm altNames') :
    d.isFor subject altNames = d.isFor subject altNames' := by
  rw [Bool.eq_iff_iff,Details.isFor_iff,Details.isFor_iff]
  constructor
  · exact fun ⟨same,names⟩ => ⟨same,names.trans perm⟩
  · exact fun ⟨same,names⟩ => ⟨same,names.trans perm.symm⟩

theorem selectCertificate_none (entries : List Details)
    (absent : ∀ d ∈ entries, d.isFor subject altNames = false) :
    selectCertificate id provider subject altNames legacy entries = legacy := by
  induction entries with
  | nil => rfl
  | cons d rest ih =>
    have here := absent d List.mem_cons_self
    have later := ih fun e member => absent e (List.mem_cons_of_mem _ member)
    simp [selectCertificate,here,later]

/-- A certificate of the provider that is the only one for the names is the one found. -/
theorem selectCertificate_only (entries : List Details) (member : d ∈ entries)
    (exact : d.provider = provider) (named : d.isFor subject altNames = true)
    (only : ∀ e ∈ entries, e.isFor subject altNames = true → e = d) :
    selectCertificate id provider subject altNames legacy entries = some d := by
  induction entries with
  | nil => cases member
  | cons e rest ih =>
    by_cases here : e.isFor subject altNames = true
    · obtain rfl := only e List.mem_cons_self here
      simp [selectCertificate,here,exact]
    · have other : d ≠ e := by
        rintro rfl
        exact here named
      have tail : d ∈ rest := (List.mem_cons.mp member).resolve_left other
      have later := ih tail fun f inside => only f (List.mem_cons_of_mem _ inside)
      simp [selectCertificate,here,later]

namespace Issuance

open RedisStore

variable (json : Json) (t : Target)

def Target.field : String := certificateKey t.provider t.subject t.altNames

def Target.lockKey : String := RedisStore.lockKey t.keyPrefix t.subject t.altNames

def Absent (hash : RedisHash) : Prop :=
  ∀ entry ∈ hash.entries, ∀ d, json.unmarshal entry.2 = .ok d →
    d.isFor t.subject t.altNames = false

structure Present (c : Details) (hash : RedisHash) : Prop where
  elsewhere : ∀ entry ∈ hash.entries, entry.1 ≠ t.field → ∀ d, json.unmarshal entry.2 = .ok d →
    d.isFor t.subject t.altNames = false
  here : ∃ raw d, hash.lookup t.field = some raw ∧ json.unmarshal raw = .ok d ∧
    d.sansAri = c.sansAri

structure Ours (c : Details) : Prop where
  provider : c.provider = t.provider
  named : c.isFor t.subject t.altNames = true

variable {json t}

theorem Ours.congr (ours : Ours t c) (same : d.sansAri = c.sansAri) : Ours t d :=
  ⟨(congrArg Details.provider same).trans ours.provider,
    (congrArg (fun e => e.isFor t.subject t.altNames) same).trans ours.named⟩

theorem Ours.field (ours : Ours t d) : RedisStore.field d = t.field := by
  obtain ⟨subject,perm⟩ := (Details.isFor_iff ..).mp ours.named
  simp only [RedisStore.field,Target.field,certificateKey,ours.provider,subject,
    (sortedCopy_eq_iff _ _).mpr perm]

section Hash

variable {hash : RedisHash} {stored : List Entry}

theorem absent_lookup (absent : Absent json t hash) (reply : stored.Perm hash.entries)
    (names : altNames.Perm t.altNames) :
    getCertificate json (.ok stored) t.provider t.subject altNames = none := by
  apply selectCertificate_none
  intro d member
  obtain ⟨entry,inside,decoded⟩ := List.mem_filterMap.mp member
  rw [isFor_perm d names]
  apply absent entry (reply.mem_iff.mp inside)
  cases result : json.unmarshal entry.2 <;> simp_all [Except.toOption]

theorem present_lookup (present : Present json t c hash) (ours : Ours t c)
    (reply : stored.Perm hash.entries) (names : altNames.Perm t.altNames) :
    ∃ d, getCertificate json (.ok stored) t.provider t.subject altNames = some d ∧
      d.sansAri = c.sansAri := by
  obtain ⟨raw,d,found,decoded,same⟩ := present.here
  have mine := ours.congr same
  refine ⟨d,selectCertificate_only _ ?_ mine.provider ?_ ?_,same⟩
  · refine List.mem_filterMap.mpr ⟨⟨t.field,raw⟩,reply.mem_iff.mpr (AList.mem_lookup_iff.mp found),?_⟩
    simp [decoded,Except.toOption]
  · rw [isFor_perm d names]
    exact mine.named
  · intro e member named
    obtain ⟨entry,inside,decoded'⟩ := List.mem_filterMap.mp member
    have good : json.unmarshal entry.2 = .ok e := by
      cases result : json.unmarshal entry.2 <;> simp_all [Except.toOption]
    by_cases place : entry.1 = t.field
    · have value : hash.lookup entry.1 = some entry.2 :=
        AList.mem_lookup_iff.mpr (reply.mem_iff.mp inside)
      rw [place,found] at value
      obtain rfl := Option.some.inj value
      exact Except.ok.inj (good.symm.trans decoded)
    · have foreign := present.elsewhere entry (reply.mem_iff.mp inside) place e good
      rw [← isFor_perm e names,named] at foreign
      cases foreign

/-- What a transaction leaves is what it wrote, or was there before. -/
theorem mem_transaction (member : entry ∈ (transaction args d raw hash).entries) :
    entry.1 = RedisStore.field d ∧ entry.2 = raw ∨
      entry.1 ≠ RedisStore.field d ∧ entry ∈ hash.entries := by
  have found := AList.mem_lookup_iff.mpr member
  by_cases same : entry.1 = RedisStore.field d
  · rw [same,transaction_lookup_self] at found
    exact .inl ⟨same,(Option.some.inj found).symm⟩
  · rw [transaction_lookup_other same] at found
    exact .inr ⟨same,AList.mem_lookup_iff.mp (Option.filter_eq_some_iff.mp found).1⟩

theorem absent_transaction (absent : Absent json t hash) (encoded : json.marshal d = .ok raw)
    (foreign : d.isFor t.subject t.altNames = false) :
    Absent json t (transaction args d raw hash) := by
  intro entry member e decoded
  rcases mem_transaction member with ⟨_,value⟩ | ⟨_,before⟩
  · rw [value,json.round_trip encoded] at decoded
    exact Except.ok.inj decoded ▸ foreign
  · exact absent entry before e decoded

/-- A foreign save prunes nothing valid and writes elsewhere. -/
theorem present_transaction (present : Present json t c hash) (encoded : json.marshal d = .ok raw)
    (foreign : d.isFor t.subject t.altNames = false) (apart : RedisStore.field d ≠ t.field)
    (alive : now < c.notAfter) (stale : ∀ entry ∈ args, prunable json now entry.2 = true) :
    Present json t c (transaction args d raw hash) := by
  constructor
  · intro entry member place e decoded
    rcases mem_transaction member with ⟨_,value⟩ | ⟨_,before⟩
    · rw [value,json.round_trip encoded] at decoded
      exact Except.ok.inj decoded ▸ foreign
    · exact present.elsewhere entry before place e decoded
  · obtain ⟨text,e,found,decoded,same⟩ := present.here
    refine ⟨text,e,?_,decoded,same⟩
    rw [transaction_lookup_other apart.symm,found]
    refine Option.filter_eq_some_iff.mpr ⟨rfl,?_⟩
    rw [decide_eq_true_eq]
    intro member
    have expiry : e.sansAri.notAfter = c.sansAri.notAfter := congrArg Details.notAfter same
    have old := stale _ member
    rw [RedisSaves.not_prunable decoded (lt_of_lt_of_eq alive expiry.symm)] at old
    cases old

/-- A call's own save puts the certificate in place, over what the field held. -/
theorem present_own (elsewhere : ∀ entry ∈ hash.entries, entry.1 ≠ t.field → ∀ e,
      json.unmarshal entry.2 = .ok e → e.isFor t.subject t.altNames = false)
    (encoded : json.marshal d = .ok raw) (ours : Ours t c) (same : d.sansAri = c.sansAri) :
    Present json t c (transaction args d raw hash) := by
  have place : RedisStore.field d = t.field := (ours.congr same).field
  constructor
  · intro entry member apart e decoded
    rcases mem_transaction member with ⟨own,_⟩ | ⟨_,before⟩
    · exact absurd (own.trans place) apart
    · exact elsewhere entry before apart e decoded
  · exact ⟨raw,d,place ▸ transaction_lookup_self,json.round_trip encoded,same⟩

end Hash

end Issuance

end Centauri
