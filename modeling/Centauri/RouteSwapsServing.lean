import Centauri.RouteSwaps

/-! A host that every configuration lists from some time on is served at every instant of any
interleaving of reloads, checks and lookups, as long as its certificate can be read back from
the store. Only the routes made since that time matter. -/

namespace Centauri.Swaps

variable {C L K : Type} [DecidableEq C] [DecidableEq L]
variable (toLower : String → String) (provided : Bool) (Fits : Route K → TlsCertificate K → Prop) (host : String) (since : Nat)

/-- What a lookup needs of a route, whichever cell it reads. -/
structure Good (route : Route K) : Prop where
  served : route.certificateStatus.served = true
  certified : provided = true → ∃ cert, route.certificate = some cert ∧ Fits route.config cert

def Brings (route : Route K) (existing : Existing K) : Prop :=
  ∃ cert needsRenewal, existing = .found cert needsRenewal ∧ Fits route.config cert

def Listing (routes : List (Route K)) : Prop :=
  RouteMap.Valid routes → ∃ route ∈ routes, RouteMap.Lists toLower route (toLower host)

/-- Every configuration that is accepted lists the host, and for its routes every read of the store
brings a certificate. Obtaining one may fail. -/
def Keeps (s : State C L K) : Event C L K → Prop
  | .setRoutes newRoutes _ => Listing toLower host newRoutes
  | .load existing => ∀ base upTo fallback route, s.setter = .loading base upTo fallback →
    s.objects[upTo]? = some route → RouteMap.Lists toLower route (toLower host) → Brings Fits route existing
  | .got c outcome => ∀ pointer rest route cert, since ≤ pointer → s.checkers c = .obtaining pointer rest →
    s.objects[pointer]? = some route → RouteMap.Lists toLower route (toLower host) → outcome = .ok cert →
      Fits route.config cert
  | .gotExisting c existing => ∀ pointer rest route, since ≤ pointer → s.checkers c = .loading pointer rest →
    s.objects[pointer]? = some route → RouteMap.Lists toLower route (toLower host) → Brings Fits route existing
  | _ => True

def State.ready (s : State C L K) : Nat :=
  match s.setter with
  | .loading _ upTo _ => upTo
  | .idle => s.objects.length
  | .mapped _ _ => s.objects.length
  | .listed _ _ => s.objects.length

def Checking.pointers : Checking K → List Nat
  | .idle => []
  | .obtaining pointer rest => pointer :: rest
  | .loading pointer rest => pointer :: rest
  | .storing pointer _ _ rest => pointer :: rest
  | .marking pointer _ rest => pointer :: rest

@[simp] theorem Checking.pointers_turn (provided : Bool) (routes : List Nat) :
    (Checking.turn provided routes : Checking K).pointers = routes := by
  cases routes with
  | nil => rfl
  | cons route rest => cases provided <;> rfl

/-- What a check is about to store does not take the route down. -/
def Harmless (s : State C L K) : Checking K → Prop
  | .storing pointer cert status _ => since ≤ pointer → ∀ route, s.objects[pointer]? = some route →
    RouteMap.Lists toLower route (toLower host) →
      status.served = true ∧ ∃ c, cert = some c ∧ Fits route.config c
  | .marking pointer status _ => since ≤ pointer → ∀ route, s.objects[pointer]? = some route →
    RouteMap.Lists toLower route (toLower host) → status.served = true
  | _ => True

def State.Lists (s : State C L K) (pointer : Nat) : Prop :=
  pointer < s.ready ∧ ∃ route, s.objects[pointer]? = some route ∧ RouteMap.Lists toLower route (toLower host)

structure Bounded (s : State C L K) : Prop where
  ready : s.ready ≤ s.objects.length
  domains : ∀ key pointer, s.domains key = some pointer → pointer < s.objects.length
  routes : ∀ pointer ∈ s.routes, pointer < s.objects.length
  pointers : ∀ c, ∀ pointer ∈ (s.checkers c).pointers, pointer < s.objects.length

/-- Of the routes made since that time, those that list the host have a certificate and will
keep it. -/
structure Healthy (s : State C L K) : Prop extends Bounded s where
  made : since ≤ s.objects.length
  good : ∀ pointer route, since ≤ pointer → pointer < s.ready → s.objects[pointer]? = some route →
    RouteMap.Lists toLower route (toLower host) → Good provided Fits route
  brought : ∀ base upTo fallback, s.setter = .loading base upTo fallback →
    since ≤ base ∧ Listing toLower host (s.objects.drop base)
  listed : ∀ pointer, since ≤ pointer → s.domains (toLower host) = some pointer → s.Lists toLower host pointer
  checkers : ∀ c, Harmless toLower Fits host since s (s.checkers c)

def State.Listed (s : State C L K) : Prop := ∃ pointer, since ≤ pointer ∧ s.domains (toLower host) = some pointer

variable {toLower provided Fits host since} {s t : State C L K} {pointer i : Nat} {route : Route K}
  {routes routes' : List (Route K)}

theorem stores_brings (brings : Brings Fits route existing) (answered : stores existing = some (cert,status)) :
    status.served = true ∧ ∃ c, cert = some c ∧ Fits route.config c := by
  obtain ⟨c,needsRenewal,rfl,fits⟩ := brings
  simp only [stores,Option.some.injEq,Prod.mk.injEq] at answered
  obtain ⟨rfl,rfl⟩ := answered
  exact ⟨by split <;> rfl,c,rfl,fits⟩

theorem loaded_config (provided : Bool) (existing : Existing K) (route : Route K) :
    (loaded provided existing route).config = route.config := by
  unfold loaded
  split
  · split <;> rfl
  · rfl

theorem loaded_good (brings : Brings Fits route existing) : Good provided Fits (loaded provided existing route) := by
  obtain ⟨c,needsRenewal,rfl,fits⟩ := brings
  cases provided with
  | false => exact ⟨rfl,nofun⟩
  | true => exact ⟨by cases needsRenewal <;> rfl,fun _ => ⟨c,rfl,fits⟩⟩

theorem modify_config {f : Route K → Route K} (config : ∀ route, (f route).config = route.config)
    (routes : List (Route K)) (i : Nat) : (routes.modify i f).map Route.config = routes.map Route.config := by
  apply List.ext_getElem?
  intro j
  rw [List.getElem?_map,List.getElem?_modify,List.getElem?_map]
  cases routes[j]? with
  | none => rfl
  | some route =>
    by_cases here : i = j
    · simp [here,config]
    · simp [here]

omit [DecidableEq C] [DecidableEq L] in
theorem setCertificate_config (s : State C L K) (pointer : Nat) (cert : Option (TlsCertificate K)) :
    (s.setCertificate pointer cert).objects.map Route.config = s.objects.map Route.config := by
  refine modify_config ?_ s.objects pointer
  exact fun _ => rfl

omit [DecidableEq C] [DecidableEq L] in
theorem setCertificateStatus_config (s : State C L K) (pointer : Nat) (status : CertificateStatus) :
    (s.setCertificateStatus pointer status).objects.map Route.config = s.objects.map Route.config := by
  refine modify_config ?_ s.objects pointer
  exact fun _ => rfl

/-- Routes are made by `SetRoutes`, and nothing but their certificates ever changes. -/
theorem config_step (step : Step toLower provided s event t) :
    (∃ newRoutes, t.objects = s.objects ++ newRoutes) ∨ t.objects.map Route.config = s.objects.map Route.config := by
  cases step with
  | setRoutes => exact .inl ⟨_,rfl⟩
  | load => exact .inr (modify_config (loaded_config provided _) ..)
  | storeCertificate => exact .inr (setCertificate_config s _ _)
  | storeStatus => exact .inr (setCertificateStatus_config s _ _)
  | _ => exact .inr rfl

theorem getElem?_of_config (same : routes'.map Route.config = routes.map Route.config)
    (there : routes[i]? = some route) : ∃ route', routes'[i]? = some route' ∧ route'.config = route.config := by
  have mapped : (routes'.map Route.config)[i]? = some route.config := by rw [same,List.getElem?_map,there]; rfl
  rw [List.getElem?_map] at mapped
  exact Option.map_eq_some_iff.mp mapped

theorem length_step (step : Step toLower provided s event t) : s.objects.length ≤ t.objects.length := by
  rcases config_step step with ⟨newRoutes,made⟩ | same
  · simp [made]
  · have := congrArg List.length same
    simp only [List.length_map] at this
    omega

theorem object_after (step : Step toLower provided s event t) (there : s.objects[pointer]? = some route) :
    ∃ after, t.objects[pointer]? = some after ∧ after.config = route.config := by
  rcases config_step step with ⟨newRoutes,made⟩ | same
  · rw [made,List.getElem?_append_left (List.getElem?_eq_some_iff.mp there).1]
    exact ⟨route,there,rfl⟩
  · exact getElem?_of_config same there

theorem object_before (step : Step toLower provided s event t) (old : pointer < s.objects.length)
    (there : t.objects[pointer]? = some route) : ∃ before, s.objects[pointer]? = some before ∧ route.config = before.config := by
  obtain ⟨after,found,config⟩ := object_after step (List.getElem?_eq_getElem old)
  rw [found] at there
  cases there
  exact ⟨_,List.getElem?_eq_getElem old,config⟩

theorem lists_config {a b : Route K} (same : a.config = b.config) (lists : RouteMap.Lists toLower a key) :
    RouteMap.Lists toLower b key := by
  obtain ⟨domain,member,lowered⟩ := lists
  exact ⟨domain,(Route.of_config same).1 ▸ member,lowered⟩

theorem Listing.congr (same : routes'.map Route.config = routes.map Route.config)
    (listing : Listing toLower host routes) : Listing toLower host routes' := by
  intro valid
  have update : RouteMap.update toLower routes' = RouteMap.update toLower routes :=
    RouteMap.update_congr (domains_of_config same)
  obtain ⟨route,member,lists⟩ := listing (RouteMap.update_ok_iff.mp (update ▸ RouteMap.update_ok_iff.mpr valid))
  obtain ⟨i,there⟩ := List.mem_iff_getElem?.mp member
  obtain ⟨route',there',config⟩ := getElem?_of_config same there
  exact ⟨route',List.mem_of_getElem? there',lists_config config.symm lists⟩

theorem ready_step (step : Step toLower provided s event t) : s.ready ≤ t.ready := by
  cases step with
  | setRoutes idle => simp [State.ready,idle]
  | load loading => simp [State.ready,loading]
  | invalid loading => simp [State.ready,loading]
  | storeDomains loading => simp [State.ready,loading]
  | storeRoutes mapped => simp [State.ready,mapped]
  | storeFallback listed => simp [State.ready,listed]
  | storeCertificate => simp [State.ready,State.setCertificate,State.setChecker]
  | storeStatus => simp [State.ready,State.setCertificateStatus,State.setChecker]
  | _ => exact Nat.le_refl _

theorem State.Lists.step (lists : s.Lists toLower host pointer) (step : Step toLower provided s event t) :
    t.Lists toLower host pointer := by
  obtain ⟨ready,route,there,listed⟩ := lists
  obtain ⟨after,found,config⟩ := object_after step there
  exact ⟨Nat.lt_of_lt_of_le ready (ready_step step),after,found,lists_config config.symm listed⟩

namespace Bounded

theorem ready_bound (bounded : Bounded s) (step : Step toLower provided s event t) : t.ready ≤ t.objects.length := by
  cases step with
  | setRoutes idle => simp [State.ready]
  | load loading next =>
    simp only [State.ready,List.length_modify]
    omega
  | invalid loading => exact Nat.le_refl _
  | storeDomains loading => exact Nat.le_refl _
  | storeRoutes mapped => exact Nat.le_refl _
  | storeFallback listed => exact Nat.le_refl _
  | storeCertificate =>
    have ready := bounded.ready
    simp only [State.ready,State.setCertificate,State.setChecker,List.length_modify] at ready ⊢
    exact ready
  | storeStatus =>
    have ready := bounded.ready
    simp only [State.ready,State.setCertificateStatus,State.setChecker,List.length_modify] at ready ⊢
    exact ready
  | _ => exact bounded.ready

theorem domains_bound (bounded : Bounded s) (step : Step toLower provided s event t) (key : String) (pointer : Nat)
    (mapped : t.domains key = some pointer) : pointer < t.objects.length := by
  have kept (before : s.domains key = some pointer) : pointer < t.objects.length :=
    Nat.lt_of_lt_of_le (bounded.domains key pointer before) (length_step step)
  cases step with
  | storeDomains loading updated =>
    obtain ⟨i,found,rfl⟩ := Option.map_eq_some_iff.mp mapped
    obtain ⟨⟨route,there,_⟩,_⟩ := (RouteMap.update_eq_some_iff updated).mp found
    rw [List.getElem?_drop] at there
    exact (List.getElem?_eq_some_iff.mp there).1
  | _ => exact kept mapped

theorem routes_bound (bounded : Bounded s) (step : Step toLower provided s event t) :
    ∀ pointer ∈ t.routes, pointer < t.objects.length := by
  have kept : ∀ pointer ∈ s.routes, pointer < t.objects.length := fun pointer member =>
    Nat.lt_of_lt_of_le (bounded.routes pointer member) (length_step step)
  cases step with
  | storeRoutes =>
    intro pointer member
    have range := List.mem_range'_1.mp member
    dsimp only
    omega
  | _ => exact kept

/-- A check goes to routes that were made before. -/
theorem pointers_old (bounded : Bounded s) (step : Step toLower provided s event t) (c : C) :
    ∀ pointer ∈ (t.checkers c).pointers, pointer < s.objects.length := by
  have own := bounded.pointers c
  have checks := checker_step step c
  generalize t.checkers c = checking at checks ⊢
  cases checks with
  | stay => exact own
  | check =>
    rw [Checking.pointers_turn]
    exact bounded.routes
  | got obtaining => rwa [obtaining] at own
  | failed obtaining => rwa [obtaining] at own
  | gotExisting loading => rwa [loading] at own
  | storeCertificate storing => rwa [storing] at own
  | storeStatus marking =>
    rw [marking] at own
    rw [Checking.pointers_turn]
    exact fun pointer member => own pointer (List.mem_cons_of_mem _ member)

theorem step (bounded : Bounded s) (step : Step toLower provided s event t) : Bounded t where
  ready := bounded.ready_bound step
  domains := bounded.domains_bound step
  routes := bounded.routes_bound step
  pointers c pointer member := Nat.lt_of_lt_of_le (bounded.pointers_old step c pointer member) (length_step step)

end Bounded

omit [DecidableEq C] [DecidableEq L] in
theorem initial_bounded : Bounded (initial : State C L K) where
  ready := Nat.le_refl _
  domains _ _ mapped := by cases mapped
  routes _ member := by cases member
  pointers _ _ member := by cases member

theorem run_bounded (run : (machine toLower provided).Run initial trace (t : State C L K)) : Bounded t :=
  run.invariant Bounded (fun _ _ bounded enabled => bounded.step (step_of_enabled enabled)) initial_bounded

namespace Healthy

omit [DecidableEq C] [DecidableEq L] in
/-- One route is rewritten and the others stay. -/
theorem good_modify {f : Route K → Route K} (there : (s.objects.modify i f)[pointer]? = some route)
    (config : ∀ route, (f route).config = route.config)
    (others : ∀ route, pointer ≠ i → s.objects[pointer]? = some route → RouteMap.Lists toLower route (toLower host) →
      Good provided Fits route)
    (own : ∀ route, pointer = i → s.objects[i]? = some route → RouteMap.Lists toLower route (toLower host) →
      Good provided Fits (f route))
    (lists : RouteMap.Lists toLower route (toLower host)) :
    Good provided Fits route := by
  rw [List.getElem?_modify] at there
  obtain ⟨before,found,rewritten⟩ := Option.map_eq_some_iff.mp there
  split at rewritten
  next here =>
    subst here
    rw [← rewritten] at lists ⊢
    exact own before rfl found (lists_config (config before) lists)
  next elsewhere =>
    rw [← rewritten] at lists ⊢
    exact others before (fun same => elsewhere same.symm) found lists

theorem good_step (healthy : Healthy toLower provided Fits host since s) (step : Step toLower provided s event t)
    (keeps : Keeps toLower Fits host since s event) (pointer : Nat) (route : Route K) (new : since ≤ pointer)
    (ready : pointer < t.ready) (there : t.objects[pointer]? = some route) (lists : RouteMap.Lists toLower route (toLower host)) :
    Good provided Fits route := by
  have kept (same : s.ready = t.ready) (there : s.objects[pointer]? = some route) : Good provided Fits route :=
    healthy.good pointer route new (same ▸ ready) there lists
  cases step with
  | setRoutes idle =>
    have old : s.ready = s.objects.length := by simp [State.ready,idle]
    refine kept old ?_
    rwa [List.getElem?_append_left ready] at there
  | load loading bound answered =>
    refine good_modify there (loaded_config provided _) (fun before elsewhere found listed => ?_)
      (fun before here found listed => ?_) lists
    · refine healthy.good pointer before new ?_ found listed
      simp only [State.ready,loading] at ready ⊢
      omega
    · exact loaded_good (keeps _ _ _ before loading found listed)
  | invalid loading => exact kept (by simp [State.ready,loading]) there
  | storeDomains loading => exact kept (by simp [State.ready,loading]) there
  | storeRoutes mapped => exact kept (by simp [State.ready,mapped]) there
  | storeFallback listed => exact kept (by simp [State.ready,listed]) there
  | @storeCertificate c _ cert status rest storing =>
    have early : pointer < s.ready := by
      simpa only [State.ready,State.setCertificate,State.setChecker,List.length_modify] using ready
    refine good_modify there (fun _ => rfl) (fun before _ found listed => healthy.good _ _ new early found listed)
      (fun before here found listed => ?_) lists
    have harmless := healthy.checkers c
    rw [storing] at harmless
    obtain ⟨_,own,rfl,fits⟩ := harmless (here ▸ new) before found listed
    exact ⟨(healthy.good _ _ new early (here ▸ found) listed).served,fun _ => ⟨own,rfl,fits⟩⟩
  | @storeStatus c _ status rest marking =>
    have early : pointer < s.ready := by
      simpa only [State.ready,State.setCertificateStatus,State.setChecker,List.length_modify] using ready
    refine good_modify there (fun _ => rfl) (fun before _ found listed => healthy.good _ _ new early found listed)
      (fun before here found listed => ?_) lists
    have harmless := healthy.checkers c
    rw [marking] at harmless
    exact ⟨harmless (here ▸ new) before found listed,(healthy.good _ _ new early (here ▸ found) listed).certified⟩
  | _ => exact kept rfl there

theorem brought_step (healthy : Healthy toLower provided Fits host since s) (step : Step toLower provided s event t)
    (keeps : Keeps toLower Fits host since s event) (base upTo : Nat) (fallback : Option Nat) (loading : t.setter = .loading base upTo fallback) :
    since ≤ base ∧ Listing toLower host (t.objects.drop base) := by
  have rewritten {upTo' : Nat} (config : t.objects.map Route.config = s.objects.map Route.config)
      (before : s.setter = .loading base upTo' fallback) : since ≤ base ∧ Listing toLower host (t.objects.drop base) := by
    obtain ⟨new,listing⟩ := healthy.brought _ _ _ before
    refine ⟨new,listing.congr ?_⟩
    rw [List.map_drop,config,List.map_drop]
  cases step with
  | setRoutes =>
    cases loading
    rw [List.drop_left]
    exact ⟨healthy.made,keeps⟩
  | load before =>
    cases loading
    exact rewritten (modify_config (loaded_config provided _) ..) before
  | storeCertificate => exact rewritten (setCertificate_config s _ _) loading
  | storeStatus => exact rewritten (setCertificateStatus_config s _ _) loading
  | invalid => cases loading
  | storeDomains => cases loading
  | storeRoutes => cases loading
  | storeFallback => cases loading
  | _ => exact healthy.brought _ _ _ loading

theorem listed_step (healthy : Healthy toLower provided Fits host since s) (step : Step toLower provided s event t)
    (new : since ≤ pointer) (listed : t.domains (toLower host) = some pointer) : t.Lists toLower host pointer := by
  have kept (before : s.domains (toLower host) = some pointer) : t.Lists toLower host pointer :=
    (healthy.listed _ new before).step step
  cases step with
  | @storeDomains base _ domains loading updated =>
    obtain ⟨i,found,rfl⟩ := Option.map_eq_some_iff.mp listed
    obtain ⟨⟨route,there,lists⟩,_⟩ := (RouteMap.update_eq_some_iff updated).mp found
    rw [List.getElem?_drop] at there
    exact ⟨(List.getElem?_eq_some_iff.mp there).1,route,there,lists⟩
  | _ => exact kept listed

theorem harmless_transfer (step : Step toLower provided s event t) {checking : Checking K}
    (bounded : ∀ pointer ∈ checking.pointers, pointer < s.objects.length)
    (harmless : Harmless toLower Fits host since s checking) : Harmless toLower Fits host since t checking := by
  cases checking with
  | storing pointer cert status rest =>
    intro new route there lists
    obtain ⟨before,found,config⟩ := object_before step (bounded pointer List.mem_cons_self) there
    rw [config]
    exact harmless new before found (lists_config config lists)
  | marking pointer status rest =>
    intro new route there lists
    obtain ⟨before,found,config⟩ := object_before step (bounded pointer List.mem_cons_self) there
    exact harmless new before found (lists_config config lists)
  | idle => trivial
  | obtaining pointer rest => trivial
  | loading pointer rest => trivial

omit [DecidableEq C] [DecidableEq L] in
theorem harmless_turn (routes : List Nat) : Harmless toLower Fits host since s (.turn provided routes) := by
  cases routes with
  | nil => trivial
  | cons pointer rest =>
    cases provided with
    | true => trivial
    | false => exact fun _ _ _ _ => rfl

theorem harmless_step (healthy : Healthy toLower provided Fits host since s) (step : Step toLower provided s event t)
    (keeps : Keeps toLower Fits host since s event) (c : C) : Harmless toLower Fits host since t (t.checkers c) := by
  refine harmless_transfer step (healthy.toBounded.pointers_old step c) ?_
  have own := healthy.checkers c
  have checks := checker_step step c
  generalize t.checkers c = checking at checks ⊢
  cases checks with
  | stay => exact own
  | check => exact harmless_turn _
  | got obtaining => exact fun new route there lists => ⟨rfl,_,rfl,keeps _ _ _ _ new obtaining there lists rfl⟩
  | failed => trivial
  | gotExisting loading answered =>
    exact fun new route there lists => stores_brings (keeps _ _ _ new loading there lists) answered
  | storeCertificate storing =>
    rw [storing] at own
    exact fun new route there lists => (own new route there lists).1
  | storeStatus => exact harmless_turn _

theorem step (healthy : Healthy toLower provided Fits host since s) (step : Step toLower provided s event t)
    (keeps : Keeps toLower Fits host since s event) :
    Healthy toLower provided Fits host since t where
  toBounded := healthy.toBounded.step step
  made := Nat.le_trans healthy.made (length_step step)
  good := healthy.good_step step keeps
  brought := healthy.brought_step step keeps
  listed _ := healthy.listed_step step
  checkers := healthy.harmless_step step keeps

/-- A host that is listed stays listed. -/
theorem stays_listed (healthy : Healthy toLower provided Fits host since s) (step : Step toLower provided s event t)
    (listed : s.Listed toLower host since) : t.Listed toLower host since := by
  cases step with
  | storeDomains loading updated =>
    obtain ⟨new,listing⟩ := healthy.brought _ _ _ loading
    obtain ⟨route,member,lists⟩ := listing (RouteMap.update_ok_iff.mp ⟨_,updated⟩)
    obtain ⟨i,there⟩ := List.mem_iff_getElem?.mp member
    obtain ⟨j,owned,_⟩ := RouteMap.update_listed updated there lists
    exact ⟨_,Nat.le_trans new (Nat.le_add_right _ j),by simp [owned]⟩
  | _ => exact listed

end Healthy

omit [DecidableEq C] [DecidableEq L] in
/-- A call of `SetRoutes` begins with routes that nobody else has. -/
theorem Bounded.begins (bounded : Bounded s) (fallback : Option Nat) (listing : Listing toLower host routes) :
    Healthy toLower provided Fits host s.objects.length
      { s with objects := s.objects ++ routes,setter := .loading s.objects.length s.objects.length fallback } := by
  have grown : s.objects.length ≤ (s.objects ++ routes).length := by simp
  refine ⟨⟨grown,fun key pointer mapped => Nat.lt_of_lt_of_le (bounded.domains key pointer mapped) grown,
    fun pointer member => Nat.lt_of_lt_of_le (bounded.routes pointer member) grown,
    fun c pointer member => Nat.lt_of_lt_of_le (bounded.pointers c pointer member) grown⟩,grown,?_,?_,?_,fun c => ?_⟩
  · exact fun pointer route new ready => absurd ready (Nat.not_lt.mpr new)
  · intro base upTo fallback loading
    cases loading
    rw [List.drop_left]
    exact ⟨Nat.le_refl _,listing⟩
  · exact fun pointer new mapped => absurd (bounded.domains _ pointer mapped) (Nat.not_lt.mpr new)
  · -- Checks under way are about routes made before.
    have old := bounded.pointers c
    dsimp only
    cases checking : s.checkers c with
    | storing pointer cert status rest =>
      rw [checking] at old
      exact fun new => absurd (old pointer List.mem_cons_self) (Nat.not_lt.mpr new)
    | marking pointer status rest =>
      rw [checking] at old
      exact fun new => absurd (old pointer List.mem_cons_self) (Nat.not_lt.mpr new)
    | idle => trivial
    | obtaining pointer rest => trivial
    | loading pointer rest => trivial

variable (Fits) in
def Query.Served (pointer : Nat) (object : Route K) (answer : Answer K) : Query → Prop
  | .route => answer = .route (some pointer)
  | .certificate => ∃ cert, answer = .certificate (some cert) ∧ Fits object.config cert

variable (toLower provided Fits host since) in
def State.Serves (s : State C L K) (query : Query) : Looking K → Prop
  | .asked q h => (q = query ∧ h = host) ∧ (query = .certificate → provided = true)
  | .missed _ _ => False
  | .found q h pointer => (q = query ∧ h = host) ∧ (query = .certificate → provided = true) ∧
    since ≤ pointer ∧ s.Lists toLower host pointer
  | .answered q h route answer => (q = query ∧ h = host) ∧
    ∃ pointer object, route = some pointer ∧ s.objects[pointer]? = some object ∧
      RouteMap.Lists toLower object (toLower host) ∧ query.Served Fits pointer object answer
  | .refused => query = .certificate ∧ provided = false
  | .idle => False

theorem State.Serves.transfer (step : Step toLower provided s event t) {looking : Looking K}
    (serves : s.Serves toLower provided Fits host since query looking) : t.Serves toLower provided Fits host since query looking := by
  cases looking with
  | found q h pointer => exact ⟨serves.1,serves.2.1,serves.2.2.1,serves.2.2.2.step step⟩
  | answered q h route answer =>
    obtain ⟨same,pointer,object,rfl,there,lists,right⟩ := serves
    obtain ⟨after,found,config⟩ := object_after step there
    refine ⟨same,pointer,after,rfl,found,lists_config config.symm lists,?_⟩
    unfold Query.Served
    rw [config]
    exact right
  | asked q h => exact serves
  | missed q h => exact serves
  | refused => exact serves
  | idle => exact serves

omit [DecidableEq C] [DecidableEq L] in
theorem State.Serves.looks (healthy : Healthy toLower provided Fits host since s) (listed : s.Listed toLower host since)
    (looks : Looks toLower s x y) (serves : s.Serves toLower provided Fits host since query x) :
    s.Serves toLower provided Fits host since query y := by
  cases looks with
  | stay => exact serves
  | hit found =>
    obtain ⟨⟨rfl,rfl⟩,supported⟩ := serves
    obtain ⟨pointer,new,mapped⟩ := listed
    obtain rfl := Option.some.inj (mapped.symm.trans found)
    exact ⟨⟨rfl,rfl⟩,supported,new,healthy.listed _ new found⟩
  | miss unlisted =>
    obtain ⟨⟨rfl,rfl⟩,_⟩ := serves
    obtain ⟨pointer,_,mapped⟩ := listed
    cases unlisted.symm.trans mapped
  | fallBack => exact serves.elim
  | nothing => exact serves.elim
  | @answer pointer route q _ there =>
    obtain ⟨⟨rfl,rfl⟩,supported,new,ready,object,found,lists⟩ := serves
    obtain rfl := Option.some.inj (there.symm.trans found)
    have good := healthy.good _ _ new ready there lists
    refine ⟨⟨rfl,rfl⟩,pointer,route,rfl,there,lists,?_⟩
    cases q with
    | route =>
      have served := good.served
      simp only [CertificateStatus.served,Bool.not_eq_true',decide_eq_false_iff_not] at served
      simp only [Query.Served,Query.answer,if_neg served]
    | certificate =>
      obtain ⟨cert,held,fits⟩ := good.certified (supported rfl)
      exact ⟨cert,by rw [Query.answer,held],fits⟩

variable (toLower provided Fits host since) in
abbrev keeping : Machine (State C L K) (Event C L K) := (machine toLower provided).restrict (Keeps toLower Fits host since)

theorem run_healthy (run : (keeping toLower provided Fits host since).Run s trace t)
    (healthy : Healthy toLower provided Fits host since s) : Healthy toLower provided Fits host since t := by
  refine run.invariant (Healthy toLower provided Fits host since) ?_ healthy
  rintro u event healthy ⟨enabled,keeps⟩
  exact healthy.step (step_of_enabled enabled) keeps

theorem run_listed (run : (keeping toLower provided Fits host since).Run s trace t)
    (healthy : Healthy toLower provided Fits host since s) (listed : s.Listed toLower host since) :
    t.Listed toLower host since := by
  refine (run.invariant (fun u => Healthy toLower provided Fits host since u ∧ u.Listed toLower host since) ?_
    ⟨healthy,listed⟩).2
  rintro u event ⟨healthy,listed⟩ ⟨enabled,keeps⟩
  have step : Step toLower provided u event _ := step_of_enabled enabled
  exact ⟨healthy.step step keeps,healthy.stays_listed step listed⟩

theorem run_serves (run : (keeping toLower provided Fits host since).Run s trace t)
    (healthy : Healthy toLower provided Fits host since s) (listed : s.Listed toLower host since)
    (single : ∀ query host, .ask l query host ∉ trace)
    (serves : s.Serves toLower provided Fits host since query (s.lookups l)) :
    t.Serves toLower provided Fits host since query (t.lookups l) := by
  have kept := run.invariant_on (fun u => Healthy toLower provided Fits host since u ∧ u.Listed toLower host since ∧
    u.Serves toLower provided Fits host since query (u.lookups l)) ?_ ⟨healthy,listed,serves⟩
  · exact kept.2.2
  rintro u event member ⟨healthy,listed,serves⟩ ⟨enabled,keeps⟩
  have step : Step toLower provided u event _ := step_of_enabled enabled
  have looks := lookup_step step l fun query host same => single query host (same ▸ member)
  exact ⟨healthy.step step keeps,healthy.stays_listed step listed,(serves.looks healthy listed looks).transfer step⟩

variable (toLower provided Fits host since) in
/-- Every lookup for the host that is asked from now on finds a route that lists it, or a certificate
that fits this route. -/
def Gapless (s : State C L K) : Prop :=
  ∀ before u l query after t route answer, (keeping toLower provided Fits host since).Run s before u →
    (keeping toLower provided Fits host since).Run (next toLower provided u (.ask l query host)) after t →
    (∀ query host, .ask l query host ∉ after) → t.lookups l = .answered query host route answer →
    ∃ pointer object, route = some pointer ∧ t.objects[pointer]? = some object ∧
      RouteMap.Lists toLower object (toLower host) ∧ query.Served Fits pointer object answer

theorem Healthy.gapless (healthy : Healthy toLower provided Fits host since s) (listed : s.Listed toLower host since) :
    Gapless toLower provided Fits host since s := by
  intro before u l query after t route answer run later single answered
  have asked : (next toLower provided u (.ask l query host)).Serves toLower provided Fits host since query
      ((next toLower provided u (.ask l query host)).lookups l) := by
    simp only [next,State.setLookup_self]
    split
    next unsupported => exact unsupported
    next supported =>
      refine ⟨⟨rfl,rfl⟩,fun certificate => ?_⟩
      simpa [certificate] using supported
  have healthy' := (run_healthy run healthy).step (step_ask u l query host) trivial
  have listed' := run_listed run healthy listed
  have serves := run_serves later healthy' listed' single asked
  rw [answered] at serves
  exact serves.2

/-- However reloads, certificate checks and lookups interleave, a host is served without a gap once
it is listed in a healthy state. The state is healthy, whatever went before, from a call of `SetRoutes`
on that lists the host, as long as later ones list it too and every read of the store brings a
certificate for the routes that list it, also those of a check that could not obtain one. -/
theorem served_without_gap (toLower : String → String) (provided : Bool) (Fits : Route K → TlsCertificate K → Prop)
    (host : String) :
    (∀ since (s : State C L K), Healthy toLower provided Fits host since s → s.Listed toLower host since →
      Gapless toLower provided Fits host since s) ∧
    ∀ past (s : State C L K) newRoutes fallback trace t, (machine toLower provided).Run initial past s →
      Listing toLower host newRoutes →
      (keeping toLower provided Fits host s.objects.length).Run (next toLower provided s (.setRoutes newRoutes fallback))
        trace t →
      Healthy toLower provided Fits host s.objects.length t :=
  ⟨fun _ _ healthy listed => healthy.gapless listed,fun _ _ _ fallback _ _ run listing later =>
    run_healthy later ((run_bounded run).begins fallback listing)⟩

namespace Sample

open Centauri.Sample (asciiLower plainRoute)

def Covers (_ : Route (List String)) (cert : TlsCertificate (List String)) : Prop := "example.com" ∈ cert.pair

def named : Route (List String) := plainRoute .notChecked

def stored : Existing (List String) := .found ⟨["example.com"],[]⟩ true

theorem stored_brings (route : Route (List String)) : Brings Covers route stored :=
  ⟨_,_,rfl,List.mem_cons_self⟩

theorem named_listing : Listing asciiLower "example.com" [named] :=
  fun _ => ⟨named,List.mem_cons_self,"example.com",by decide,rfl⟩

def elsewhere : List (Event Unit Unit (List String)) :=
  [.setRoutes [{ named with domains := ["example.org"],named := List.cons_ne_nil _ _ }] none,.load (.missing true ""),
    .storeDomains,.storeRoutes,.storeFallback,.check (),.got () (.err "rate limited")]

def unlisted : State Unit Unit (List String) := (machine asciiLower true).after initial elsewhere

def reload : List (Event Unit Unit (List String)) := [.load stored,.gotExisting () (.missing true ""),.storeDomains,.storeRoutes]

def serving : State Unit Unit (List String) :=
  (machine asciiLower true).after (next asciiLower true unlisted (.setRoutes [named] none)) reload

/-- A handshake during a check whose renewal fails, and another reload. -/
def handshake : List (Event Unit Unit (List String)) :=
  [.storeCertificate (),.storeStatus (),.check (),.got () (.err "rate limited"),.storeFallback,.readDomains (),
    .gotExisting () stored,.setRoutes [named] none,.storeCertificate (),.readRoute ()]

def shaken : State Unit Unit (List String) :=
  (machine asciiLower true).after (next asciiLower true serving (.ask () .certificate "example.com")) handshake

theorem handshake_served : ∃ cert, shaken.lookups () = .answered .certificate "example.com" (some 1) (.certificate (some cert)) ∧
    "example.com" ∈ cert.pair := by
  have past : (machine asciiLower true).Run initial elsewhere unlisted := Machine.run_of_allows (by decide +kernel)
  have loaded : (keeping asciiLower true Covers "example.com" 1).Run (next asciiLower true unlisted (.setRoutes [named] none))
      reload serving :=
    .cons ⟨by decide +kernel,fun _ _ _ route _ _ _ => stored_brings route⟩
      (.cons ⟨by decide +kernel,fun pointer _ _ new at_c => by cases at_c; cases new⟩
        (.cons ⟨by decide +kernel,trivial⟩ (.cons ⟨by decide +kernel,trivial⟩ .nil)))
  have later : (keeping asciiLower true Covers "example.com" 1).Run
      (next asciiLower true serving (.ask () .certificate "example.com")) handshake shaken :=
    .cons ⟨by decide +kernel,trivial⟩ (.cons ⟨by decide +kernel,trivial⟩
      (.cons ⟨by decide +kernel,trivial⟩ (.cons ⟨by decide +kernel,fun _ _ _ _ _ _ _ _ ok => by cases ok⟩
        (.cons ⟨by decide +kernel,trivial⟩ (.cons ⟨by decide +kernel,trivial⟩
          (.cons ⟨by decide +kernel,fun _ _ route _ _ _ _ => stored_brings route⟩
            (.cons ⟨by decide +kernel,named_listing⟩ (.cons ⟨by decide +kernel,trivial⟩
              (.cons ⟨by decide +kernel,trivial⟩ .nil)))))))))
  obtain ⟨gapless,healthy⟩ := served_without_gap (C := Unit) (L := Unit) asciiLower true Covers "example.com"
  have answered : shaken.lookups () = .answered .certificate "example.com" (some 1) (.certificate (some ⟨["example.com"],[]⟩)) := by
    decide +kernel
  obtain ⟨pointer,object,_,_,_,cert,same,covers⟩ := gapless 1 serving
    (healthy elsewhere unlisted [named] none reload serving past named_listing loaded) ⟨1,Nat.le_refl _,by decide +kernel⟩
    [] serving () .certificate handshake shaken (some 1) _ .nil later (by simp [handshake]) answered
  exact ⟨cert,same ▸ answered,covers⟩

end Sample

end Centauri.Swaps
