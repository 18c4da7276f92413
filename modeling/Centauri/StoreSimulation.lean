import Centauri.JsonStore
import Centauri.RedisStore

/-! One client's saves on the file store and on the Redis store, side by side.
The hash differs from the list only by a last certificate that was saved expired. -/
namespace Centauri.RedisStore

variable (json : Json)

/-- The calls `SaveCertificate(d)` at the listed times, each reading the hash in
some order and returning no error. -/
inductive Saved : List (Int × Details) → RedisHash → Prop where
  | nil : Saved [] ∅
  | snoc {hash next : RedisHash} {stored : List Entry} : Saved saves hash → stored.Perm hash.entries →
      saveCertificate json now (.ok stored) .ok d hash = (next,none) →
      Saved (saves ++ [(now,d)]) next

def Holds (hash : RedisHash) (d : Details) : Prop :=
  ∃ entry ∈ hash.entries, json.unmarshal entry.2 = .ok d

/-- Every field decodes to a certificate saved under its own key. -/
def Coherent (hash : RedisHash) : Prop :=
  ∀ entry ∈ hash.entries, ∃ d, json.unmarshal entry.2 = .ok d ∧ entry.1 = field d ∧ PlainNames d

variable {json} {hash : RedisHash}

theorem holds_iff (coherent : Coherent json hash) :
    Holds json hash d ↔ ∃ raw, hash.lookup (field d) = some raw ∧ json.unmarshal raw = .ok d := by
  constructor
  · rintro ⟨entry,member,decoded⟩
    obtain ⟨e,decoded',name,_⟩ := coherent entry member
    obtain rfl : d = e := Except.ok.inj (decoded.symm.trans decoded')
    refine ⟨entry.2,?_,decoded⟩
    rw [← name]
    exact AList.mem_lookup_iff.mpr member
  · rintro ⟨raw,found,decoded⟩
    exact ⟨⟨field d,raw⟩,AList.mem_lookup_iff.mp found,decoded⟩

theorem Holds.plain (coherent : Coherent json hash) (holds : Holds json hash d) : PlainNames d := by
  obtain ⟨entry,member,decoded⟩ := holds
  obtain ⟨e,decoded',_,plain⟩ := coherent entry member
  exact Except.ok.inj (decoded.symm.trans decoded') ▸ plain

theorem saveCertificate_done {next : RedisHash}
    (done : saveCertificate json now (.ok stored) .ok d hash = (next,none)) :
    ∃ raw, json.marshal d = .ok raw ∧
      next = transaction (pruneArgs json now stored) d raw hash := by
  unfold saveCertificate at done
  cases encoded : json.marshal d with
  | error message => simp [encoded] at done
  | ok raw =>
    simp only [encoded,Prod.mk.injEq,and_true] at done
    exact ⟨raw,rfl,done.symm⟩

theorem transaction_coherent (coherent : Coherent json hash) (plain : PlainNames d)
    (encoded : json.marshal d = .ok raw) : Coherent json (transaction args d raw hash) := by
  intro entry member
  have found := AList.mem_lookup_iff.mpr member
  by_cases same : entry.1 = field d
  · rw [same,transaction_lookup_self] at found
    obtain rfl := Option.some.inj found
    exact ⟨d,json.round_trip encoded,same,plain⟩
  · rw [transaction_lookup_other same] at found
    obtain ⟨kept,_⟩ := Option.filter_eq_some_iff.mp found
    exact coherent entry (AList.mem_lookup_iff.mp kept)

/-- What a save leaves in the hash: the saved certificate even if expired, and the
valid certificates under other keys. -/
theorem transaction_holds (coherent : Coherent json hash) (plain : PlainNames d)
    (encoded : json.marshal d = .ok raw) (reply : stored.Perm hash.entries) :
    Holds json (transaction (pruneArgs json now stored) d raw hash) e ↔
      e = d ∨ Holds json hash e ∧ e.validFor now 0 = true ∧ e.key ≠ d.key := by
  rw [holds_iff (transaction_coherent coherent plain encoded)]
  by_cases same : field e = field d
  · rw [same,transaction_lookup_self]
    constructor
    · rintro ⟨text,found,decoded⟩
      obtain rfl := Option.some.inj found
      exact .inl (Except.ok.inj (decoded.symm.trans (json.round_trip encoded)))
    · rintro (rfl | ⟨holds,_,apart⟩)
      · exact ⟨raw,rfl,json.round_trip encoded⟩
      · exact absurd ((field_eq_iff (holds.plain coherent) plain).mp same) apart
  · rw [transaction_pruned json reply same]
    constructor
    · rintro ⟨text,kept,decoded⟩
      obtain ⟨found,fresh⟩ := Option.filter_eq_some_iff.mp kept
      have holds : Holds json hash e := (holds_iff coherent).mpr ⟨text,found,decoded⟩
      refine .inr ⟨holds,by simpa [prunable,decoded] using fresh,?_⟩
      exact fun eq => same ((field_eq_iff (holds.plain coherent) plain).mpr eq)
    · rintro (rfl | ⟨holds,valid,_⟩)
      · exact absurd rfl same
      · obtain ⟨text,found,decoded⟩ := (holds_iff coherent).mp holds
        refine ⟨text,Option.filter_eq_some_iff.mpr ⟨found,?_⟩,decoded⟩
        simpa [prunable,decoded] using valid

/-- Decoded certificates have distinct keys, so no enumeration order can matter. -/
theorem allCertificates_distinct (coherent : Coherent json hash)
    (reply : stored.Perm hash.entries) :
    Expiring.Distinct (keyOf id) (allCertificates json stored) := by
  have fields : (stored.map Sigma.fst).Nodup :=
    (reply.map Sigma.fst).nodup_iff.mpr hash.nodupKeys
  have members : ∀ entry ∈ stored, entry ∈ hash.entries := fun entry => reply.mem_iff.mp
  clear reply
  induction stored with
  | nil => exact List.nodup_nil
  | cons entry rest ih =>
    obtain ⟨absent,later⟩ := List.nodup_cons.mp fields
    obtain ⟨d,decoded,name,plain⟩ := coherent entry (members entry List.mem_cons_self)
    have tail := ih later fun e he => members e (List.mem_cons_of_mem _ he)
    have head : allCertificates json (entry :: rest) = d :: allCertificates json rest := by
      simp [allCertificates,decoded,Except.toOption]
    rw [head]
    refine List.nodup_cons.mpr ⟨?_,tail⟩
    intro member
    obtain ⟨e,he,sameKey⟩ := List.mem_map.mp member
    obtain ⟨other,otherMember,otherDecoded⟩ := List.mem_filterMap.mp he
    obtain ⟨e',decoded',name',plain'⟩ := coherent other (members other (List.mem_cons_of_mem _ otherMember))
    have eq : e' = e := by simpa [decoded',Except.toOption] using otherDecoded
    subst e'
    apply absent
    rw [name,(field_eq_iff plain plain').mpr sameKey.symm,← name']
    exact List.mem_map_of_mem otherMember

theorem mem_allCertificates (reply : stored.Perm hash.entries) :
    d ∈ allCertificates json stored ↔ Holds json hash d := by
  simp only [allCertificates,List.mem_filterMap,Holds,reply.mem_iff]
  constructor
  · rintro ⟨entry,member,decoded⟩
    refine ⟨entry,member,?_⟩
    cases h : json.unmarshal entry.2 with
    | error message => simp [h,Except.toOption] at decoded
    | ok e => simpa [h,Except.toOption] using decoded
  · rintro ⟨entry,member,decoded⟩
    exact ⟨entry,member,by simp [decoded,Except.toOption]⟩

theorem Saved.last (saved : Saved json (saves ++ [(now,d)]) hash) :
    ∃ previous stored raw, Saved json saves previous ∧ stored.Perm previous.entries ∧
      json.marshal d = .ok raw ∧
      hash = transaction (pruneArgs json now stored) d raw previous := by
  generalize whole : saves ++ [(now,d)] = history at saved
  cases saved with
  | nil => simp at whole
  | @snoc _ _ _ previous _ stored earlier reply done =>
    obtain ⟨rfl,last⟩ := List.append_inj' whole rfl
    simp only [List.cons.injEq,Prod.mk.injEq,and_true] at last
    obtain ⟨rfl,rfl⟩ := last
    obtain ⟨raw,encoded,rfl⟩ := saveCertificate_done done
    exact ⟨previous,stored,raw,earlier,reply,encoded,rfl⟩

end Centauri.RedisStore

namespace Centauri

open RedisStore

variable {ρ : Type} {json : Json} {deref : ρ → Details}

theorem JsonStore.Saved.last (saved : JsonStore.Saved json deref (saves ++ [(now,r)]) j) :
    ∃ previous write, JsonStore.Saved json deref saves previous ∧
      JsonStore.saveCertificate json deref now write r previous = (j,none) := by
  generalize whole : saves ++ [(now,r)] = history at saved
  cases saved with
  | nil => simp at whole
  | @snoc _ previous _ write _ _ earlier done =>
    obtain ⟨rfl,last⟩ := List.append_inj' whole rfl
    simp only [List.cons.injEq,Prod.mk.injEq,and_true] at last
    obtain ⟨rfl,rfl⟩ := last
    exact ⟨previous,write,earlier,done⟩

def JsonStore.Holds (deref : ρ → Details) (j : JsonStore ρ) (d : Details) : Prop :=
  ∃ r ∈ j.certificates, deref r = d

theorem JsonStore.saveCertificate_holds (distinct : Expiring.Distinct (keyOf deref) j.certificates)
    (done : JsonStore.saveCertificate json deref now write r j = (next,none)) :
    next.Holds deref d ↔
      (d = deref r ∨ j.Holds deref d ∧ d.key ≠ (deref r).key) ∧ now < d.notAfter := by
  have contents : next.certificates = _ :=
    done ▸ saveCertificate_certificates json deref now write r j
  unfold JsonStore.Holds
  simp only [contents,Expiring.mem_save distinct,expiryOf]
  constructor
  · rintro ⟨q,⟨rfl | ⟨member,apart⟩,alive⟩,rfl⟩
    · exact ⟨.inl rfl,alive⟩
    · exact ⟨.inr ⟨⟨q,member,rfl⟩,apart⟩,alive⟩
  · rintro ⟨rfl | ⟨⟨q,member,rfl⟩,apart⟩,alive⟩
    · exact ⟨r,⟨.inl rfl,alive⟩,rfl⟩
    · exact ⟨q,⟨.inr ⟨member,apart⟩,alive⟩,rfl⟩

/-- What expires after the last save expires after all of them. -/
theorem outlives {saves : List (Int × ρ)}
    (ordered : ((saves ++ [(now,r)]).map Prod.fst).Pairwise (· ≤ ·)) (alive : now < expiry) :
    ∀ entry ∈ saves ++ [(now,r)], entry.1 < expiry := by
  rw [List.map_append,List.pairwise_append] at ordered
  intro entry member
  rcases List.mem_append.mp member with earlier | last
  · exact lt_of_le_of_lt (ordered.2.2 _ (List.mem_map_of_mem earlier) now (by simp)) alive
  · rw [List.mem_singleton.mp last]
    exact alive

/-- The file store holds what the hash holds, less what has expired by the last save. -/
theorem saved_holds {hash : RedisHash} (saves : List (Int × ρ))
    (ordered : (saves.map Prod.fst).Pairwise (· ≤ ·))
    (plain : ∀ entry ∈ saves, PlainNames (deref entry.2))
    (file : JsonStore.Saved json deref saves j)
    (redis : RedisStore.Saved json (saves.map fun entry => (entry.1,deref entry.2)) hash) :
    Coherent json hash ∧ ∀ d, j.Holds deref d ↔
      RedisStore.Holds json hash d ∧ ∀ entry ∈ saves, entry.1 < d.notAfter := by
  induction saves using List.reverseRecOn generalizing j hash with
  | nil =>
    generalize none : ([] : List (Int × ρ)).map (fun entry => (entry.1,deref entry.2)) = history at redis
    cases redis with
    | snoc => simp at none
    | nil =>
      have empty := file.certificates
      refine ⟨fun entry member => by simp at member,fun d => ?_⟩
      simp [JsonStore.Holds,RedisStore.Holds,empty,Expiring.saveAll]
  | append_singleton saves entry ih =>
    obtain ⟨now,r⟩ := entry
    rw [List.map_append,List.map_singleton] at redis
    obtain ⟨before,write,earlier,done⟩ := file.last
    obtain ⟨previous,stored,raw,client,reply,encoded,rfl⟩ := redis.last
    have sooner := ordered.sublist ((List.sublist_append_left saves [(now,r)]).map Prod.fst)
    obtain ⟨coherent,agree⟩ := ih sooner
      (fun entry member => plain entry (List.mem_append_left _ member)) earlier client
    have plainLast : PlainNames (deref r) := plain (now,r) (by simp)
    refine ⟨transaction_coherent coherent plainLast encoded,fun d => ?_⟩
    rw [JsonStore.saveCertificate_holds earlier.distinct done,
      transaction_holds coherent plainLast encoded reply,agree,Details.validFor_iff,Int.add_zero]
    constructor
    · rintro ⟨held,alive⟩
      have times := outlives ordered alive
      rcases held with rfl | ⟨⟨holds,_⟩,apart⟩
      · exact ⟨.inl rfl,times⟩
      · exact ⟨.inr ⟨holds,alive,apart⟩,times⟩
    · rintro ⟨held,times⟩
      refine ⟨?_,times (now,r) (by simp)⟩
      rcases held with rfl | ⟨holds,_,apart⟩
      · exact .inl rfl
      · exact .inr ⟨⟨holds,fun entry member => times entry (List.mem_append_left _ member)⟩,apart⟩

/-- The hash also keeps a certificate that was saved last and expired already. -/
theorem saved_contents {hash : RedisHash} (saves : List (Int × ρ))
    (ordered : ((saves ++ [(now,r)]).map Prod.fst).Pairwise (· ≤ ·))
    (plain : ∀ entry ∈ saves ++ [(now,r)], PlainNames (deref entry.2))
    (file : JsonStore.Saved json deref (saves ++ [(now,r)]) j)
    (redis : RedisStore.Saved json
      ((saves ++ [(now,r)]).map fun entry => (entry.1,deref entry.2)) hash) (d : Details) :
    RedisStore.Holds json hash d ↔
      j.Holds deref d ∨ d = deref r ∧ (deref r).validFor now 0 = false := by
  have agree := (saved_holds _ ordered plain file redis).2
  have plainLast : PlainNames (deref r) := plain (now,r) (by simp)
  rw [List.map_append,List.map_singleton] at redis
  obtain ⟨previous,stored,raw,client,reply,encoded,rfl⟩ := redis.last
  obtain ⟨_,_,earlier,_⟩ := file.last
  have sooner := ordered.sublist ((List.sublist_append_left saves [(now,r)]).map Prod.fst)
  have before := (saved_holds saves sooner
    (fun entry member => plain entry (List.mem_append_left _ member)) earlier client).1
  constructor
  · intro holds
    by_cases valid : d.validFor now 0 = true
    · have alive : now < d.notAfter := by simpa using valid
      exact .inl ((agree d).mpr ⟨holds,outlives ordered alive⟩)
    · rcases (transaction_holds before plainLast encoded reply).mp holds with rfl | ⟨_,alive,_⟩
      · exact .inr ⟨rfl,Bool.eq_false_iff.mpr valid⟩
      · exact absurd alive valid
  · rintro (held | ⟨rfl,_⟩)
    · exact ((agree d).mp held).1
    · exact (transaction_holds before plainLast encoded reply).mpr (.inl rfl)

/-- Two clients of one design: after the same saves at the same times the hash holds
the file store's certificates, and the last one even if it was saved expired. Lookups
agree whenever the last one was valid, in whatever order the hash is enumerated. -/
theorem redis_simulates_json (saves : List (Int × ρ)) (now : Int) (r : ρ) (j : JsonStore ρ)
    (hash : RedisHash) (ordered : ((saves ++ [(now,r)]).map Prod.fst).Pairwise (· ≤ ·))
    (plain : ∀ entry ∈ saves ++ [(now,r)], PlainNames (deref entry.2))
    (file : JsonStore.Saved json deref (saves ++ [(now,r)]) j)
    (redis : RedisStore.Saved json
      ((saves ++ [(now,r)]).map fun entry => (entry.1,deref entry.2)) hash) :
    (∀ d, RedisStore.Holds json hash d ↔
      j.Holds deref d ∨ d = deref r ∧ (deref r).validFor now 0 = false) ∧
    ((deref r).validFor now 0 = true → ∀ stored, stored.Perm hash.entries →
      ∀ provider subject altNames, getCertificate json (.ok stored) provider subject altNames =
        (j.getCertificate deref provider subject altNames).map deref) ∧
    ∀ stored stored', stored.Perm hash.entries → stored'.Perm hash.entries →
      ∀ provider subject altNames, getCertificate json (.ok stored) provider subject altNames =
        getCertificate json (.ok stored') provider subject altNames := by
  have coherent := (saved_holds _ ordered plain file redis).1
  have contents := saved_contents saves ordered plain file redis
  refine ⟨contents,?_,?_⟩
  · intro valid stored reply provider subject altNames
    rw [getCertificate,JsonStore.getCertificate,selectCertificate_map]
    apply selectCertificate_congr id _ _ _ (allCertificates_distinct coherent reply)
      (distinct_contents file.distinct)
    intro d
    rw [mem_allCertificates reply,contents,valid]
    simp [JsonStore.Holds]
  · intro stored stored' reply reply' provider subject altNames
    apply selectCertificate_congr id _ _ _ (allCertificates_distinct coherent reply)
      (allCertificates_distinct coherent reply')
    intro d
    rw [mem_allCertificates reply,mem_allCertificates reply']

def Sample.hash : RedisHash :=
  (∅ : RedisHash).insert "lego;example.com;a;b" Sample.renewedText
    |>.insert ";example.com;a;b" Sample.legacyText

theorem RedisStore.sample_saved : RedisStore.Saved Sample.json Sample.history Sample.hash := by
  have first : RedisStore.Saved Sample.json [(10,Sample.issued)]
      ((∅ : RedisHash).insert "lego;example.com;a;b" Sample.issuedText) :=
    Saved.nil.snoc (.refl _)
      (show saveCertificate Sample.json 10 (.ok []) .ok Sample.issued ∅ = _ by decide +kernel)
  have second : RedisStore.Saved Sample.json [(10,Sample.issued),(20,Sample.renewed)]
      ((∅ : RedisHash).insert "lego;example.com;a;b" Sample.renewedText) :=
    first.snoc (.refl _) (show saveCertificate Sample.json 20
      (.ok [⟨"lego;example.com;a;b",Sample.issuedText⟩]) .ok Sample.renewed _ = _ by decide +kernel)
  exact second.snoc (.refl _) (show saveCertificate Sample.json 30
    (.ok [⟨"lego;example.com;a;b",Sample.renewedText⟩]) .ok Sample.legacy _ = _ by decide +kernel)

theorem sample_agrees :
    getCertificate Sample.json (.ok Sample.hash.entries.reverse) "lego" "example.com" ["a","b"] =
      some Sample.renewed := by
  have same := (redis_simulates_json [(10,Sample.issued),(20,Sample.renewed)] 30 Sample.legacy _
    Sample.hash (by decide) (by decide) JsonStore.sample_saved RedisStore.sample_saved).2.1
    (by decide) _ (List.reverse_perm _) "lego" "example.com" ["a","b"]
  rw [same]
  decide

end Centauri
