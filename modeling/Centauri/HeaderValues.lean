import Centauri.ReverseProxy

/-! The values of headers, name by name: what header rules make of them, which headers an error
page loses with the connection it came over, and the addresses that a trusted downstream
listed. -/
namespace Centauri

theorem HttpHeader.get_values (name : String) (h : HttpHeader) :
    h.get name = (h.values (canonicalHeaderKey name)).head?.getD "" := by
  unfold HttpHeader.get HttpHeader.values
  cases h.lookup (canonicalHeaderKey name) with
  | none => rfl
  | some values => cases values <;> rfl

namespace Header

/-- What a rule is documented to make of the values under its name. -/
def documented (rule : Header) (values : List String) : List String :=
  match rule.operation with
  | .delete => []
  | .add => values ++ [rule.value]
  | .replace => [rule.value]
  | .default => if values = [] then [rule.value] else values

/-- What the loop makes of them: a header is taken for absent if its first value is empty. -/
def effect (rule : Header) (values : List String) : List String :=
  match rule.operation with
  | .delete => []
  | .add => values ++ [rule.value]
  | .replace => [rule.value]
  | .default => if values.head?.getD "" = "" then [rule.value] else values

def documentedAll (rules : List Header) (values : List String) : List String :=
  rules.foldl (fun values rule => rule.documented values) values

def effectAll (rules : List Header) (values : List String) : List String :=
  rules.foldl (fun values rule => rule.effect values) values

def named (key : String) (rules : List Header) : List Header :=
  rules.filter fun rule => canonicalHeaderKey rule.name == key

variable {rule : Header}

theorem values_apply (rule : Header) (h : HttpHeader) (key : String) :
    (rule.apply h).values key =
      if canonicalHeaderKey rule.name = key then rule.effect (h.values key) else h.values key := by
  by_cases here : canonicalHeaderKey rule.name = key
  · subst here
    cases operation : rule.operation with
    | delete => simp [apply,effect,operation,HttpHeader.values,HttpHeader.lookup_del]
    | add => simp [apply,effect,operation,HttpHeader.values,HttpHeader.lookup_add]
    | replace => simp [apply,effect,operation,HttpHeader.values,HttpHeader.lookup_set]
    | default =>
      simp only [apply,effect,operation,HttpHeader.get_values,beq_iff_eq]
      split
      · simp [HttpHeader.values,HttpHeader.lookup_set]
      · simp
  · have other : key ≠ canonicalHeaderKey rule.name := Ne.symm here
    rw [if_neg here]
    unfold apply HttpHeader.values
    cases rule.operation with
    | delete => rw [HttpHeader.lookup_del,if_neg other]
    | add => rw [HttpHeader.lookup_add,if_neg other]
    | replace => rw [HttpHeader.lookup_set,if_neg other]
    | default =>
      dsimp only
      split
      · rw [HttpHeader.lookup_set,if_neg other]
      · rfl

/-- The rules for other names do not matter. -/
theorem values_applyAll (rules : List Header) (h : HttpHeader) (key : String) :
    (applyAll rules h).values key = effectAll (named key rules) (h.values key) := by
  induction rules generalizing h with
  | nil => rfl
  | cons rule rest ih =>
    change (applyAll rest (rule.apply h)).values key = _
    rw [ih,values_apply,named,named,List.filter_cons]
    by_cases here : canonicalHeaderKey rule.name = key
    · simp [here,effectAll]
    · simp [here]

/-- The rule would overwrite values that are there, and this makes a difference. -/
def Conflates (rule : Header) (values : List String) : Prop :=
  values.head? = some "" ∧ values ≠ [rule.value]

instance (rule : Header) (values : List String) : Decidable (rule.Conflates values) :=
  inferInstanceAs (Decidable (_ ∧ _))

/-- What the rules for one name left once they differ from what they are documented to leave. -/
structure Diverged (values intended : List String) : Prop where
  present : values ≠ []
  empty : intended.head? = some ""
  differ : values.head? ≠ some "" ∨ values.length < intended.length

theorem Diverged.ne (diverged : Diverged values intended) : values ≠ intended := by
  rintro rfl
  rcases diverged.differ with head | shorter
  · exact head diverged.empty
  · omega

def Keeps (rule : Header) : Prop := rule.operation = .add ∨ rule.operation = .default

instance (rule : Header) : Decidable rule.Keeps := inferInstanceAs (Decidable (_ ∨ _))

theorem Diverged.step (diverged : Diverged values intended) (keeps : rule.Keeps) :
    Diverged (rule.effect values) (rule.documented intended) := by
  obtain ⟨present,empty,differ⟩ := diverged
  obtain ⟨first,rest,rfl⟩ := List.exists_cons_of_ne_nil present
  obtain ⟨more,rfl⟩ := List.head?_eq_some_iff.mp empty
  rcases keeps with operation | operation
  · refine ⟨by simp [effect,operation],by simp [documented,operation],?_⟩
    simpa [effect,documented,operation] using differ
  · have left : rule.documented ("" :: more) = "" :: more := by simp [documented,operation]
    rw [left]
    by_cases blank : first = ""
    · -- The code starts over with one value, where at least two are intended.
      have restarted : rule.effect (first :: rest) = [rule.value] := by simp [effect,operation,blank]
      rw [restarted]
      refine ⟨by simp,by simp,.inr ?_⟩
      simp only [List.head?_cons,blank,ne_eq,not_true_eq_false,false_or,List.length_cons] at differ
      simp only [List.length_cons,List.length_nil]
      omega
    · have kept : rule.effect (first :: rest) = first :: rest := by simp [effect,operation,blank]
      rw [kept]
      exact ⟨by simp,by simp,.inl (by simpa using blank)⟩

theorem Conflates.diverged (conflates : rule.Conflates intended) (operation : rule.operation = .default)
    (before : values = intended ∨ Diverged values intended) :
    Diverged (rule.effect values) (rule.documented intended) := by
  rcases before with rfl | diverged
  · obtain ⟨empty,other⟩ := conflates
    obtain ⟨more,rfl⟩ := List.head?_eq_some_iff.mp empty
    simp only [effect,documented,operation,List.head?_cons,Option.getD_some,if_true,reduceCtorEq,if_false]
    refine ⟨by simp,by simp,?_⟩
    by_cases blank : rule.value = ""
    · right
      rw [blank] at other
      cases more with
      | nil => exact absurd rfl other
      | cons => simp
    · left
      simpa using blank
  · exact diverged.step (.inr operation)

/-- A rule that conflates nothing does what it is documented to do. -/
theorem effect_documented (told : rule.operation = .default → ¬rule.Conflates values) :
    rule.effect values = rule.documented values := by
  cases operation : rule.operation with
  | delete => simp [effect,documented,operation]
  | add => simp [effect,documented,operation]
  | replace => simp [effect,documented,operation]
  | default =>
    have apart := told operation
    cases values with
    | nil => simp [effect,documented,operation]
    | cons first rest =>
      by_cases blank : first = ""
      · subst blank
        have single : "" :: rest = [rule.value] := by
          by_contra other
          exact apart ⟨rfl,other⟩
        simp [effect,documented,operation,single]
      · simp [effect,documented,operation,blank]

/-- Any other rule forgets what was there, and what should have been. -/
theorem effect_forgets (forgets : ¬rule.Keeps) (values intended : List String) :
    rule.effect values = rule.documented intended := by
  cases operation : rule.operation with
  | delete => simp [effect,documented,operation]
  | replace => simp [effect,documented,operation]
  | add => exact absurd (.inl operation) forgets
  | default => exact absurd (.inr operation) forgets

/-- Rules either do what they are documented to do or go astray the same way. -/
theorem effect_cases (before : values = intended ∨ Diverged values intended) (rule : Header) :
    rule.effect values = rule.documented intended ∨ Diverged (rule.effect values) (rule.documented intended) := by
  by_cases keeps : rule.Keeps
  · rcases before with rfl | diverged
    · by_cases conflates : rule.operation = .default ∧ rule.Conflates values
      · exact .inr (conflates.2.diverged conflates.1 (.inl rfl))
      · exact .inl (effect_documented fun operation bad => conflates ⟨operation,bad⟩)
    · exact .inr (diverged.step keeps)
  · exact .inl (effect_forgets keeps values intended)

theorem effectAll_cases (rules : List Header) (before : values = intended ∨ Diverged values intended) :
    effectAll rules values = documentedAll rules intended ∨
      Diverged (effectAll rules values) (documentedAll rules intended) := by
  induction rules generalizing values intended with
  | nil => exact before
  | cons rule rest ih => exact ih (effect_cases before rule)

theorem Diverged.run (diverged : Diverged values intended) (keeps : ∀ rule ∈ rules, Keeps rule) :
    Diverged (effectAll rules values) (documentedAll rules intended) := by
  induction rules generalizing values intended with
  | nil => exact diverged
  | cons rule rest ih =>
    exact ih (diverged.step (keeps rule List.mem_cons_self)) fun later member =>
      keeps later (List.mem_cons_of_mem _ member)

/-- No default rule conflates values that are there with none, unless the header is deleted or
replaced after it. -/
def Told (rules : List Header) (values : List String) : Prop :=
  ∀ front rule back, rules = front ++ rule :: back → rule.operation = .default → (∀ later ∈ back, later.Keeps) →
    ¬rule.Conflates (documentedAll front values)

theorem effectAll_append (front back : List Header) (values : List String) :
    effectAll (front ++ back) values = effectAll back (effectAll front values) := List.foldl_append

theorem documentedAll_append (front back : List Header) (values : List String) :
    documentedAll (front ++ back) values = documentedAll back (documentedAll front values) := List.foldl_append

/-- The rules for one name do what they are documented to do exactly if they are told apart. -/
theorem effectAll_eq_iff (rules : List Header) (values : List String) :
    effectAll rules values = documentedAll rules values ↔ Told rules values := by
  constructor
  · rintro same front rule back rfl operation keeps conflates
    rw [effectAll_append,documentedAll_append] at same
    have diverged := conflates.diverged operation (effectAll_cases front (.inl rfl))
    exact (diverged.run keeps).ne same
  · intro told
    induction rules using List.reverseRecOn with
    | nil => rfl
    | append_singleton front rule ih =>
      rw [effectAll_append,documentedAll_append]
      change rule.effect _ = rule.documented _
      by_cases keeps : rule.Keeps
      · -- What is asked of the rules before the last is asked of them here as well.
        rw [ih ?_]
        · exact effect_documented fun operation => told front rule [] rfl operation (by simp)
        · rintro first other back rfl operation later
          refine told first other (back ++ [rule]) (by simp) operation ?_
          simpa [or_imp,forall_and] using And.intro later keeps
      · exact effect_forgets keeps _ _

end Header

/-- Under every name the rules of the request's route do what they are documented to do, exactly
if under every name no default rule conflates empty values with none. -/
theorem Rewriter.rewriteHeaders_documented {K : Type} (toLower : String → String) (routes : Routes K)
    (request : Request) (h : HttpHeader) :
    (∀ key, (rewriteHeaders toLower routes request h).values key =
      Header.documentedAll (Header.named key (rules toLower routes request)) (h.values key)) ↔
    ∀ key, Header.Told (Header.named key (rules toLower routes request)) (h.values key) := by
  apply forall_congr'
  intro key
  rw [rewriteHeaders_eq,Header.values_applyAll]
  exact Header.effectAll_eq_iff _ _

namespace Sample

def defaulting : Routes Unit where
  domains _ := none
  fallback := some { plainRoute .notRequired with headers := [⟨"referrer-policy","origin",.default⟩] }

/-- The upstream sent an empty policy and a second one, which are replaced. -/
theorem emptyPolicy_replaced :
    (Rewriter.rewriteHeaders asciiLower defaulting spoofed
      [("Referrer-Policy",["","no-referrer"])]).values "Referrer-Policy" = ["origin"] ∧
    Header.documentedAll
        (Header.named "Referrer-Policy" (Rewriter.rules asciiLower defaulting spoofed)) ["","no-referrer"] =
      ["","no-referrer"] := by
  decide +kernel

end Sample

theorem lookup_removeHopByHopHeaders (h : HttpHeader) (key : String) :
    (removeHopByHopHeaders h).lookup key = if key ∈ hopByHopHeaders then none else h.lookup key := by
  have canonical : hopByHopHeaders.map canonicalHeaderKey = hopByHopHeaders := by decide +kernel
  rw [removeHopByHopHeaders,HttpHeader.lookup_delAll,canonical]

/-- The proxy removes one name more, and whatever a Connection header lists. -/
theorem ReverseProxy.lookup_removeHopByHopHeaders (h : HttpHeader) (key : String) :
    (ReverseProxy.removeHopByHopHeaders h).lookup key =
      if key ∈ ("Proxy-Connection" :: h.connectionListed).map canonicalHeaderKey ∨ key ∈ hopByHopHeaders then none
      else h.lookup key := by
  have canonical : hopHeaders.map canonicalHeaderKey = hopHeaders := by decide +kernel
  have more : key ∈ hopHeaders ↔ key = "Proxy-Connection" ∨ key ∈ hopByHopHeaders := by
    simp [hopHeaders,hopByHopHeaders,or_left_comm]
  have own : canonicalHeaderKey "Proxy-Connection" = "Proxy-Connection" := by decide +kernel
  have removed : key ∈ (h.connectionListed ++ hopHeaders).map canonicalHeaderKey ↔
      key ∈ ("Proxy-Connection" :: h.connectionListed).map canonicalHeaderKey ∨ key ∈ hopByHopHeaders := by
    rw [List.map_append,canonical,List.mem_append,more,List.map_cons,own,List.mem_cons,or_left_comm,or_assoc]
  rw [ReverseProxy.removeHopByHopHeaders,HttpHeader.lookup_delAll]
  exact if_congr removed rfl rfl

/-- An error page keeps just the headers that the proxy would keep of a regular response, exactly
if it has none that only the proxy removes. -/
theorem removeHopByHopHeaders_mirrors (h : HttpHeader) :
    (∀ key, (removeHopByHopHeaders h).lookup key = (ReverseProxy.removeHopByHopHeaders h).lookup key) ↔
    ∀ name ∈ "Proxy-Connection" :: h.connectionListed,
      h.lookup (canonicalHeaderKey name) = none ∨ canonicalHeaderKey name ∈ hopByHopHeaders := by
  constructor
  · intro same name member
    have here := same (canonicalHeaderKey name)
    rw [lookup_removeHopByHopHeaders,ReverseProxy.lookup_removeHopByHopHeaders,
      if_pos (Or.inl (List.mem_map_of_mem member))] at here
    by_cases removed : canonicalHeaderKey name ∈ hopByHopHeaders
    · exact .inr removed
    · rw [if_neg removed] at here
      exact .inl here
  · intro absent key
    rw [lookup_removeHopByHopHeaders,ReverseProxy.lookup_removeHopByHopHeaders]
    by_cases removed : key ∈ hopByHopHeaders
    · rw [if_pos removed,if_pos (Or.inr removed)]
    · by_cases listed : key ∈ ("Proxy-Connection" :: h.connectionListed).map canonicalHeaderKey
      · rw [if_neg removed,if_pos (Or.inl listed)]
        obtain ⟨name,member,rfl⟩ := List.mem_map.mp listed
        exact (absent name member).resolve_right removed
      · rw [if_neg removed,if_neg (not_or.mpr ⟨listed,removed⟩)]

namespace Sample

/-- A header of the error upstream's own connection reaches the client. -/
theorem listedHeader_kept :
    let header : HttpHeader := [("Connection",["close, x-shard"]),("X-Shard",["7"])]
    (removeHopByHopHeaders header).lookup "X-Shard" = some ["7"] ∧
    (ReverseProxy.removeHopByHopHeaders header).lookup "X-Shard" = none := by
  decide +kernel

end Sample

namespace HttpHeader

theorem elements_comma (first second : String) :
    elements (first ++ "," ++ second) = elements first ++ elements second := by
  have text : (first ++ "," ++ second).toList = first.toList ++ ',' :: second.toList := by simp
  simp only [elements,Strings.split,text,List.splitOn_append_cons_self,List.map_append,List.filter_append]

theorem dropWhile_plain {l : List Char} (plain : ∀ c ∈ l, isBlank c = false) : l.dropWhile isBlank = l := by
  cases l with
  | nil => rfl
  | cons c rest => simp [plain c List.mem_cons_self]

/-- A token after blanks is the only element. -/
theorem elements_token (lead : List Char) (blank : ∀ c ∈ lead, c ≠ ',' ∧ isBlank c = true) (some : token ≠ "")
    (plain : ∀ c ∈ token.toList, c ≠ ',' ∧ isBlank c = false) :
    elements (String.ofList lead ++ token) = [token] := by
  have unsplit : ',' ∉ lead ++ token.toList := by
    rw [List.mem_append]
    rintro (inLead | inToken)
    · exact (blank _ inLead).1 rfl
    · exact (plain _ inToken).1 rfl
  have trimmed : ReverseProxy.trim isBlank (String.ofList (lead ++ token.toList)) = token := by
    have front : (lead ++ token.toList).dropWhile isBlank = token.toList := by
      rw [List.dropWhile_append_of_pos fun c member => (blank c member).2,
        dropWhile_plain fun c member => (plain c member).2]
    have back : token.toList.reverse.dropWhile isBlank = token.toList.reverse :=
      dropWhile_plain fun c member => (plain c (List.mem_reverse.mp member)).2
    rw [ReverseProxy.trim,String.toList_ofList,front,back,List.reverse_reverse,String.ofList_toList]
  have text : (String.ofList lead ++ token).toList = lead ++ token.toList := by simp
  rw [elements,Strings.split,text,List.splitOn_eq_singleton unsplit,List.map_singleton,List.map_singleton,trimmed]
  simp [some]

end HttpHeader

/-- An address that is read back from a list is the one that was put in it. -/
theorem elements_address (lead : List Char) (blank : ∀ c ∈ lead, c ≠ ',' ∧ isBlank c = true)
    (parsed : Net.parseIP ip = some bytes) : HttpHeader.elements (String.ofList lead ++ ip) = [ip] := by
  obtain ⟨some,chars⟩ := Net.parseIP_chars parsed
  refine HttpHeader.elements_token lead blank some fun c member => ⟨?_,?_⟩
  · rintro rfl
    exact absurd (chars _ member) (by decide)
  · rw [Bool.eq_false_iff]
    intro space
    simp only [isBlank,Bool.or_eq_true,beq_iff_eq] at space
    rcases space with ((rfl | rfl) | rfl) | rfl <;> exact absurd (chars _ member) (by decide)

theorem trusted_parses (trust : trusted downstreams ip = true) : ∃ bytes, Net.parseIP ip = some bytes := by
  unfold trusted at trust
  cases parsed : Net.parseIP ip with
  | none => simp [parsed] at trust
  | some bytes => exact ⟨bytes,rfl⟩

section Chain

variable {downstreams : List Net.IPNet} (tailscale : Option (String → Except String UserProfile)) (inbound : Request)
  {out : Request}

/-- What a trusted downstream's first line listed, with the downstream itself at the end. -/
theorem forwarded_elements (trust : trusted downstreams (remoteIP out) = true) :
    ∃ value, HttpHeader.values ((decorators downstreams tailscale).foldl
        (fun out decorate => decorate inbound out) out).header "X-Forwarded-For" = [value] ∧
      HttpHeader.elements value =
        HttpHeader.elements (HttpHeader.get "X-Forwarded-For" inbound.header) ++ [remoteIP out] := by
  obtain ⟨bytes,parsed⟩ := trusted_parses trust
  rw [HttpHeader.values,decorators_lookup tailscale (by decide +kernel) (by decide)]
  simp only [xForwardedForDecorator,lookup_forward,forwarding_canonical,trust,true_and]
  refine ⟨_,rfl,?_⟩
  split
  next sent =>
    have text : HttpHeader.get "X-Forwarded-For" inbound.header ++ ", " ++ remoteIP out =
        HttpHeader.get "X-Forwarded-For" inbound.header ++ "," ++ (String.ofList [' '] ++ remoteIP out) := by
      rw [← String.toList_inj]
      simp
    rw [text,HttpHeader.elements_comma,elements_address [' '] (by simp [isBlank]) parsed]
  next unsent =>
    have none : HttpHeader.get "X-Forwarded-For" inbound.header = "" := by simpa using unsent
    have alone := elements_address [] (by simp) parsed
    rw [String.ofList_nil,String.empty_append] at alone
    rw [none,alone]
    rfl

/-- The whole chain of a trusted downstream is passed on exactly if no line after its first lists
anything. -/
theorem forwarded_chain (trust : trusted downstreams (remoteIP out) = true) :
    (∃ value, HttpHeader.values ((decorators downstreams tailscale).foldl
        (fun out decorate => decorate inbound out) out).header "X-Forwarded-For" = [value] ∧
      HttpHeader.elements value =
        (HttpHeader.values inbound.header "X-Forwarded-For").flatMap HttpHeader.elements ++ [remoteIP out]) ↔
    ∀ line ∈ (HttpHeader.values inbound.header "X-Forwarded-For").tail, HttpHeader.elements line = [] := by
  obtain ⟨value,single,listed⟩ := forwarded_elements tailscale inbound trust
  rw [HttpHeader.get_values,forwarding_canonical.1] at listed
  have whole : (∃ value', HttpHeader.values ((decorators downstreams tailscale).foldl
        (fun out decorate => decorate inbound out) out).header "X-Forwarded-For" = [value'] ∧
      HttpHeader.elements value' =
        (HttpHeader.values inbound.header "X-Forwarded-For").flatMap HttpHeader.elements ++ [remoteIP out]) ↔
      HttpHeader.elements ((HttpHeader.values inbound.header "X-Forwarded-For").head?.getD "") =
        (HttpHeader.values inbound.header "X-Forwarded-For").flatMap HttpHeader.elements := by
    rw [single]
    simp [listed]
  rw [whole]
  cases HttpHeader.values inbound.header "X-Forwarded-For" with
  | nil => exact ⟨by simp,fun _ => rfl⟩
  | cons first later => simp [List.flatMap_cons,List.flatMap_eq_nil_iff]

end Chain

namespace Sample

/-- The two lines of a client behind a trusted proxy: the second is lost. -/
theorem secondLine_lost :
    let out := (decorators [⟨[192,0,2,0],[255,255,255,0]⟩] none).foldl
      (fun out decorate => decorate spoofed out) honest
    trusted [⟨[192,0,2,0],[255,255,255,0]⟩] (remoteIP honest) = true ∧
    HttpHeader.values spoofed.header "X-Forwarded-For" = ["10.0.0.1","10.0.0.2"] ∧
    HttpHeader.values out.header "X-Forwarded-For" = ["10.0.0.1, 192.0.2.1"] ∧
    ¬∃ value, HttpHeader.values out.header "X-Forwarded-For" = [value] ∧
      HttpHeader.elements value =
        (HttpHeader.values spoofed.header "X-Forwarded-For").flatMap HttpHeader.elements ++ [remoteIP honest] := by
  intro out
  have sent : HttpHeader.values out.header "X-Forwarded-For" = ["10.0.0.1, 192.0.2.1"] := by decide +kernel
  refine ⟨by decide +kernel,by decide +kernel,sent,?_⟩
  rintro ⟨value,single,listed⟩
  rw [sent] at single
  obtain rfl : "10.0.0.1, 192.0.2.1" = value := by simpa using single
  exact absurd listed (by decide +kernel)

theorem chain_preserved :
    let inbound : Request := { honest with header := [("X-Forwarded-For",["10.0.0.1,10.0.0.2"," ,"])] }
    ∃ value, HttpHeader.values ((decorators [⟨[192,0,2,0],[255,255,255,0]⟩] none).foldl
        (fun out decorate => decorate inbound out) honest).header "X-Forwarded-For" = [value] ∧
      HttpHeader.elements value =
        (HttpHeader.values inbound.header "X-Forwarded-For").flatMap HttpHeader.elements ++ [remoteIP honest] :=
  (forwarded_chain none _ (by decide +kernel)).mpr (by decide +kernel)

end Sample

end Centauri
