import Centauri.RouteTable

/-! Wildcard certificates. The resolver stands before another provider and replaces the
names that a configured domain covers. -/
namespace Centauri

structure WildcardResolver where
  domains : List String

namespace WildcardResolver

/-- A configured domain with its leading dot, which it may lack. -/
def dotted (domain : String) : String := if ['.'] <+: domain.toList then domain else "." ++ domain

def new (domains : List String) : WildcardResolver where
  domains := domains.filterMap fun domain =>
    if ['.'] <+: domain.toList then some domain
    else if domain.toList.length > 0 then some ("." ++ domain)
    else none

def applyWildcard (w : WildcardResolver) (domain : String) : String :=
  match w.domains.find? fun wildcard =>
      let label := Strings.trimSuffix domain wildcard
      label != domain && Strings.count label '.' == 0 with
  | some wildcard => "*" ++ wildcard
  | none => domain

def applyWildcards (w : WildcardResolver) (domains : List String) : List String :=
  domains.map w.applyWildcard

variable {S A K : Type}

def asProvider (w : WildcardResolver) (upstream : CertificateProvider S A K) : CertificateProvider S A K where
  getCertificate a preferredSupplier subject altNames :=
    upstream.getCertificate a preferredSupplier (w.applyWildcard subject) (w.applyWildcards altNames)
  getExistingCertificate a preferredSupplier subject altNames :=
    upstream.getExistingCertificate a preferredSupplier (w.applyWildcard subject) (w.applyWildcards altNames)

theorem mem_new {configured : List String} :
    wildcard ∈ (new configured).domains ↔ ∃ domain ∈ configured, domain ≠ "" ∧ dotted domain = wildcard := by
  simp only [new,List.mem_filterMap]
  apply exists_congr
  intro domain
  apply and_congr_right
  intro _
  unfold dotted
  by_cases dot : ['.'] <+: domain.toList
  · have some : domain ≠ "" := by
      rintro rfl
      simp at dot
    simp [dot,some]
  · by_cases none : domain = ""
    · subst none
      simp
    · have length : domain.toList.length > 0 := by simpa [List.length_pos_iff] using none
      simp only [if_neg dot,if_pos length,Option.some.injEq]
      exact ⟨fun eq => ⟨none,eq⟩,And.right⟩

theorem dotted_starts (domain : String) : ∃ rest, (dotted domain).toList = '.' :: rest := by
  unfold dotted
  split
  next dot =>
    obtain ⟨rest,eq⟩ := dot
    exact ⟨rest,eq.symm⟩
  next => exact ⟨domain.toList,by simp⟩

def Covered (configured : List String) (name : String) : Prop :=
  ∃ domain ∈ configured, domain ≠ "" ∧ dotted domain = Strings.fromFirst '.' name

/-- Only the part of a name from its first dot can stand for it. -/
theorem matched_covers (listed : wildcard ∈ (new configured).domains)
    (label : Strings.trimSuffix name wildcard ≠ name ∧ Strings.count (Strings.trimSuffix name wildcard) '.' = 0) :
    wildcard = Strings.fromFirst '.' name ∧ Covered configured name := by
  obtain ⟨domain,member,some,rfl⟩ := mem_new.mp listed
  obtain ⟨rest,starts⟩ := dotted_starts domain
  have same := (Strings.trimSuffix_label starts).mp label
  exact ⟨same,domain,member,some,same⟩

theorem applyWildcard_covered (covered : Covered configured name) :
    (new configured).applyWildcard name = "*" ++ Strings.fromFirst '.' name := by
  obtain ⟨domain,member,some,eq⟩ := covered
  have listed : Strings.fromFirst '.' name ∈ (new configured).domains := mem_new.mpr ⟨domain,member,some,eq⟩
  unfold applyWildcard
  split
  next wildcard found =>
    have matched := List.find?_some found
    rw [(matched_covers (List.mem_of_find?_eq_some found) (by simpa using matched)).1]
  next missed =>
    obtain ⟨rest,starts⟩ := dotted_starts domain
    have label := (Strings.trimSuffix_label starts).mpr eq
    rw [eq] at label
    exact absurd (List.find?_eq_none.mp missed _ listed) (by simpa using label)

theorem applyWildcard_uncovered (uncovered : ¬Covered configured name) :
    (new configured).applyWildcard name = name := by
  unfold applyWildcard
  split
  next wildcard found =>
    have matched := List.find?_some found
    exact absurd (matched_covers (List.mem_of_find?_eq_some found) (by simpa using matched)).2 uncovered
  next => rfl

theorem fromFirst_star (name : String) :
    Strings.fromFirst '.' ("*" ++ Strings.fromFirst '.' name) = Strings.fromFirst '.' name := by
  simp only [Strings.fromFirst,String.toList_append,String.toList_ofList]
  have again : ∀ l : List Char, (l.dropWhile (· != '.')).dropWhile (· != '.') = l.dropWhile (· != '.') := by
    intro l
    induction l with
    | nil => rfl
    | cons c rest ih =>
      by_cases dot : c = '.'
      · simp [dot]
      · simpa [dot] using ih
  simp [again]

/-- Different names resolve to one only where one configured domain covers both. -/
theorem applyWildcard_eq_iff {configured : List String} {name other : String} :
    (new configured).applyWildcard name = (new configured).applyWildcard other ↔
      name = other ∨ Covered configured name ∧ Covered configured other ∧
        Strings.fromFirst '.' name = Strings.fromFirst '.' other := by
  -- A name that is already the wildcard of a covered one is covered itself.
  have starred {x y : String} (covered : Covered configured x)
      (same : "*" ++ Strings.fromFirst '.' x = y) : Covered configured y := by
    subst same
    unfold Covered
    rw [fromFirst_star]
    exact covered
  constructor
  · intro same
    by_cases first : Covered configured name <;> by_cases second : Covered configured other
    · rw [applyWildcard_covered first,applyWildcard_covered second] at same
      have parts := congrArg String.toList same
      simp only [String.toList_append,List.append_cancel_left_eq] at parts
      exact .inr ⟨first,second,String.toList_inj.mp parts⟩
    · rw [applyWildcard_covered first,applyWildcard_uncovered second] at same
      exact absurd (starred first same) second
    · rw [applyWildcard_uncovered first,applyWildcard_covered second] at same
      exact absurd (starred second same.symm) first
    · rw [applyWildcard_uncovered first,applyWildcard_uncovered second] at same
      exact .inl same
  · rintro (rfl | ⟨first,second,same⟩)
    · rfl
    · rw [applyWildcard_covered first,applyWildcard_covered second,same]

/-- No two of the names are subdomains of one configured domain. -/
def Apart (configured : List String) (names : List String) : Prop :=
  ∀ name ∈ names, ∀ other ∈ names, name ≠ other → Covered configured name → Covered configured other →
    Strings.fromFirst '.' name ≠ Strings.fromFirst '.' other

theorem applyWildcards_nodup {configured names : List String} (distinct : names.Nodup) :
    ((new configured).applyWildcards names).Nodup ↔ Apart configured names := by
  rw [applyWildcards,List.nodup_map_iff_inj_on distinct]
  constructor
  · intro injective name member other member' differ first second same
    exact differ (injective name member other member' (applyWildcard_eq_iff.mpr (.inr ⟨first,second,same⟩)))
  · intro apart name member other member' resolved
    rcases applyWildcard_eq_iff.mp resolved with same | ⟨first,second,same⟩
    · exact same
    · by_contra differ
      exact apart name member other member' differ first second same

theorem isDomainName_labelled (valid : isDomainName domain = true) : ¬['.'] <+: domain.toList :=
  fun ⟨_,starts⟩ => isDomainName_head valid starts.symm

/-- A certificate name is good for a domain: it is the same, or a wildcard for its first
label. -/
def Matches (name domain : String) : Prop :=
  name = domain ∨ ∃ label rest, label ≠ [] ∧ '.' ∉ label ∧ name.toList = '*' :: '.' :: rest ∧
    domain.toList = label ++ '.' :: rest

theorem applyWildcard_matches (configured : List String) (labelled : ¬['.'] <+: domain.toList) :
    Matches ((new configured).applyWildcard domain) domain := by
  by_cases covered : Covered configured domain
  · right
    rw [applyWildcard_covered covered]
    obtain ⟨wildcard,_,_,eq⟩ := covered
    obtain ⟨rest,starts⟩ := dotted_starts wildcard
    rw [eq,Strings.fromFirst,String.toList_ofList] at starts
    have whole : domain.toList = domain.toList.takeWhile (· != '.') ++ '.' :: rest := by
      rw [← starts,List.takeWhile_append_dropWhile]
    refine ⟨domain.toList.takeWhile (· != '.'),rest,?_,?_,?_,whole⟩
    · intro none
      rw [none,List.nil_append] at whole
      exact labelled ⟨rest,whole.symm⟩
    · intro member
      simpa using List.mem_takeWhile_imp member
    · simp [Strings.fromFirst,starts]
  · exact .inl (applyWildcard_uncovered covered)

/-- What is configured matters, not in which order or how often. -/
theorem applyWildcard_congr {configured reordered : List String}
    (same : ∀ domain, domain ∈ reordered ↔ domain ∈ configured) (name : String) :
    (new reordered).applyWildcard name = (new configured).applyWildcard name := by
  have iff : Covered reordered name ↔ Covered configured name := by
    unfold Covered
    simp only [same]
  by_cases covered : Covered configured name
  · rw [applyWildcard_covered covered,applyWildcard_covered (iff.mpr covered)]
  · rw [applyWildcard_uncovered covered,applyWildcard_uncovered (mt iff.mp covered)]

/-- Every domain of a route without a subject is good with the names that are passed on. -/
theorem resolved_names_match (configured : List String) (route : Route K) (unnamed : route.subject = [])
    (valid : ∀ domain ∈ route.domains, isDomainName domain = true) :
    ∀ domain ∈ route.domains,
      ∃ name ∈ (new configured).applyWildcard route.certificateNames.1 ::
        (new configured).applyWildcards route.certificateNames.2, Matches name domain := by
  intro domain member
  have names : route.certificateNames.1 :: route.certificateNames.2 = route.domains := by
    simp [Route.certificateNames,unnamed]
  refine ⟨(new configured).applyWildcard domain,?_,
    applyWildcard_matches configured (isDomainName_labelled (valid domain member))⟩
  rw [applyWildcards,← List.map_cons,names]
  exact List.mem_map_of_mem member

/-- The resolver replaces the first label of a name that a configured domain covers and
nothing else, and both calls ask the upstream for names that cover the route. -/
theorem resolver_covers {S A K : Type} (configured : List String) :
    (∀ name, isDomainName name = true →
      (Covered configured name →
        (new configured).applyWildcard name = "*" ++ Strings.fromFirst '.' name) ∧
      (¬Covered configured name → (new configured).applyWildcard name = name) ∧
      ∀ reordered : List String, (∀ domain, domain ∈ reordered ↔ domain ∈ configured) →
        (new reordered).applyWildcard name = (new configured).applyWildcard name) ∧
    ∀ route : Route K, route.subject = [] → (∀ domain ∈ route.domains, isDomainName domain = true) →
      (∀ (upstream : CertificateProvider S A K) (a : A) (s : S),
        ((new configured).asProvider upstream).getCertificate a route.provider route.certificateNames.1
            route.certificateNames.2 s =
          upstream.getCertificate a route.provider ((new configured).applyWildcard route.certificateNames.1)
            ((new configured).applyWildcards route.certificateNames.2) s ∧
        ((new configured).asProvider upstream).getExistingCertificate a route.provider
            route.certificateNames.1 route.certificateNames.2 s =
          upstream.getExistingCertificate a route.provider ((new configured).applyWildcard route.certificateNames.1)
            ((new configured).applyWildcards route.certificateNames.2) s) ∧
      ∀ domain ∈ route.domains, ∃ name ∈ (new configured).applyWildcard route.certificateNames.1 ::
        (new configured).applyWildcards route.certificateNames.2, Matches name domain := by
  refine ⟨fun name _ => ⟨applyWildcard_covered,applyWildcard_uncovered,fun _ same =>
    applyWildcard_congr same name⟩,fun route unnamed valid => ?_⟩
  exact ⟨fun _ _ _ => ⟨rfl,rfl⟩,resolved_names_match configured route unnamed valid⟩

end WildcardResolver

namespace Sample

def wildcardRoute : Route Unit :=
  { plainRoute .notChecked with
    domains := ["www.example.com","example.com","a.b.example.com"],named := List.cons_ne_nil _ _ }

theorem wildcardRoute_covered :
    (∀ (upstream : CertificateProvider Unit Unit Unit) (a : Unit) (s : Unit),
      ((WildcardResolver.new ["","example.com"]).asProvider upstream).getCertificate a ""
          "www.example.com" ["example.com","a.b.example.com"] s =
        upstream.getCertificate a "" "*.example.com" ["example.com","a.b.example.com"] s ∧
      ((WildcardResolver.new ["","example.com"]).asProvider upstream).getExistingCertificate a ""
          "www.example.com" ["example.com","a.b.example.com"] s =
        upstream.getExistingCertificate a "" "*.example.com" ["example.com","a.b.example.com"] s) ∧
    ∀ domain ∈ ["www.example.com","example.com","a.b.example.com"],
      ∃ name ∈ ["*.example.com","example.com","a.b.example.com"], WildcardResolver.Matches name domain := by
  have covered := (WildcardResolver.resolver_covers (S := Unit) (A := Unit) ["","example.com"]).2 wildcardRoute rfl
    (by decide)
  have subject : (WildcardResolver.new ["","example.com"]).applyWildcard wildcardRoute.certificateNames.1 =
      "*.example.com" := by decide +kernel
  have altNames : (WildcardResolver.new ["","example.com"]).applyWildcards wildcardRoute.certificateNames.2 =
      ["example.com","a.b.example.com"] := by decide +kernel
  rw [subject,altNames] at covered
  exact covered

end Sample

namespace WildcardResolver

def resolve (w : WildcardResolver) (names : String × List String) : String × List String :=
  (w.applyWildcard names.1,w.applyWildcards names.2)

/-- A certificate stored under one route's names is the other's too, if they have the same
subject and the same set of names. -/
def Shares (names other : String × List String) : Prop :=
  names.1 = other.1 → (∀ name, name ∈ names.1 :: names.2 ↔ name ∈ other.1 :: other.2) →
    ∀ d : Details, d.subject = names.1 → d.altNames = names.2 → d.isFor other.1 other.2 = true

theorem shares_of_nodup {names other : String × List String} (distinct : (names.1 :: names.2).Nodup)
    (distinct' : (other.1 :: other.2).Nodup) : Shares names other := by
  intro subject same d named alternatives
  rw [Details.isFor_iff,named,alternatives]
  have all := (List.perm_ext_iff_of_nodup distinct distinct').mpr same
  rw [subject] at all
  exact ⟨subject,all.cons_inv⟩

/-- Two routes resolve to names without repetition, and then share a certificate where they
can, exactly when neither has two subdomains of one configured domain. -/
theorem resolve_nodup_iff (configured : List String) (names other : String × List String)
    (distinct : (names.1 :: names.2).Nodup) (distinct' : (other.1 :: other.2).Nodup) :
    (((new configured).resolve names).1 :: ((new configured).resolve names).2).Nodup ∧
      (((new configured).resolve other).1 :: ((new configured).resolve other).2).Nodup ∧
      Shares ((new configured).resolve names) ((new configured).resolve other) ↔
    Apart configured (names.1 :: names.2) ∧ Apart configured (other.1 :: other.2) := by
  rw [← applyWildcards_nodup distinct,← applyWildcards_nodup distinct']
  constructor
  · rintro ⟨once,once',_⟩
    exact ⟨once,once'⟩
  · rintro ⟨once,once'⟩
    exact ⟨once,once',shares_of_nodup once once'⟩

end WildcardResolver

namespace Sample

/-- Two subdomains of one wildcard domain: its wildcard is asked for twice, and the
certificate of a route with one of them is not found for the route with both. -/
theorem subdomains_repeated :
    let w := WildcardResolver.new ["example.com"]
    let one := ("example.com",["test.example.com"])
    let both := ("example.com",["test.example.com","admin.example.com"])
    w.resolve both = ("example.com",["*.example.com","*.example.com"]) ∧
    ¬((w.resolve both).1 :: (w.resolve both).2).Nodup ∧
    (∀ name, name ∈ (w.resolve one).1 :: (w.resolve one).2 ↔ name ∈ (w.resolve both).1 :: (w.resolve both).2) ∧
    ¬WildcardResolver.Shares (w.resolve one) (w.resolve both) := by
  intro w one both
  have single : w.resolve one = ("example.com",["*.example.com"]) := by decide +kernel
  have double : w.resolve both = ("example.com",["*.example.com","*.example.com"]) := by decide +kernel
  rw [single,double]
  refine ⟨rfl,by decide,by simp,?_⟩
  intro shares
  have accepted := shares rfl (by simp) (bare "lego" "example.com" ["*.example.com"] 100) rfl rfl
  exact absurd accepted (by decide +kernel)

theorem subdomain_unrepeated :
    let w := WildcardResolver.new ["example.com"]
    let one := ("example.com",["test.example.com","a.b.example.com"])
    let other := ("example.com",["a.b.example.com","admin.example.com"])
    ((w.resolve one).1 :: (w.resolve one).2).Nodup ∧ ((w.resolve other).1 :: (w.resolve other).2).Nodup ∧
      WildcardResolver.Shares (w.resolve one) (w.resolve other) ↔
    WildcardResolver.Apart ["example.com"] ["example.com","test.example.com","a.b.example.com"] ∧
      WildcardResolver.Apart ["example.com"] ["example.com","a.b.example.com","admin.example.com"] :=
  WildcardResolver.resolve_nodup_iff ["example.com"] ("example.com",["test.example.com","a.b.example.com"])
    ("example.com",["a.b.example.com","admin.example.com"]) (by decide) (by decide)

end Sample

end Centauri
