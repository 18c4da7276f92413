import Centauri.RouteServing
import Centauri.RouteSwaps

/-! The calls of the manager as uninterrupted runs of their steps: what the coarse model does in
one call, the fine one does when nobody else moves. -/
namespace Centauri.Swaps

variable {C L S A K : Type} [DecidableEq C] [DecidableEq L] {toLower : String → String} {provided : Bool}
variable {s t : State C L K}

/-- A step can be taken whenever its conditions hold. -/
theorem Step.taken (step : Step toLower provided s event t) (silent : ∀ l query host, event ≠ .ask l query host) :
    (machine toLower provided).Enabled s event ∧ next toLower provided s event = t := by
  cases step with
  | setRoutes idle inRange => exact ⟨decide_eq_true ⟨idle,inRange⟩,rfl⟩
  | load loading inside answered =>
    refine ⟨?_,by simp only [next,loading]⟩
    simp only [machine,enabled,loading,inside,decide_true,Bool.true_and]
    cases provided with
    | false => rfl
    | true => exact answered rfl
  | invalid loading refused => exact ⟨by simp only [machine,enabled,loading,decide_true],by simp only [next,loading,refused]⟩
  | storeDomains loading updated => exact ⟨by simp only [machine,enabled,loading,decide_true],by simp only [next,loading,updated]⟩
  | storeRoutes mapped => exact ⟨by simp only [machine,enabled,mapped],by simp only [next,mapped]⟩
  | storeFallback listed => exact ⟨by simp only [machine,enabled,listed],by simp only [next,listed]⟩
  | check idle => exact ⟨by simp only [machine,enabled,idle],rfl⟩
  | got obtaining => exact ⟨by simp only [machine,enabled,obtaining],by simp only [next,obtaining]⟩
  | failed obtaining => exact ⟨by simp only [machine,enabled,obtaining],by simp only [next,obtaining]⟩
  | gotExisting loading answered => exact ⟨by simp only [machine,enabled,loading,answered,Option.isSome_some],by simp only [next,loading,answered]⟩
  | storeCertificate storing => exact ⟨by simp only [machine,enabled,storing],by simp only [next,storing]⟩
  | storeStatus marking => exact ⟨by simp only [machine,enabled,marking],by simp only [next,marking]⟩
  | refuse => exact (silent _ _ _ rfl).elim
  | ask => exact (silent _ _ _ rfl).elim
  | hit asked listed => exact ⟨by simp only [machine,enabled,asked],by simp only [next,asked,listed]⟩
  | miss asked unlisted => exact ⟨by simp only [machine,enabled,asked],by simp only [next,asked,unlisted]⟩
  | fallBack missed set => exact ⟨by simp only [machine,enabled,missed],by simp only [next,missed,set]⟩
  | nothing missed unset => exact ⟨by simp only [machine,enabled,missed],by simp only [next,missed,unset]⟩
  | answer found there => exact ⟨by simp only [machine,enabled,found],by simp only [next,found,there]⟩
  | dangling found gone => exact ⟨by simp only [machine,enabled,found],by simp only [next,found,gone]⟩

theorem Step.reaches (step : Step toLower provided s event t) (silent : ∀ l query host, event ≠ .ask l query host) :
    (machine toLower provided).Reaches s t := by
  obtain ⟨enabled,rfl⟩ := step.taken silent
  exact .single enabled

theorem modify_middle (pre : List α) (x : α) (post : List α) (f : α → α) :
    (pre ++ x :: post).modify pre.length f = pre ++ f x :: post := by
  induction pre with
  | nil => rfl
  | cons y pre ih => simp [ih]

/-- What a call of the coarse `loadCertificate` stores is one of the answers. -/
theorem loadCertificate_loaded {provider : Option (CertificateProvider S A K)}
    (done : CertificateProvider.loadCertificate provider a route st = (st',some route')) :
    ∃ existing, (provider.isSome = true → (stores existing).isSome) ∧ route' = loaded provider.isSome existing route := by
  unfold CertificateProvider.loadCertificate at done
  split at done
  next =>
    cases done
    exact ⟨.crashed,nofun,rfl⟩
  next p =>
    dsimp only at done
    split at done
    next cert needsRenewal _ =>
      cases done
      exact ⟨.found cert needsRenewal,fun _ => rfl,rfl⟩
    next needsRenewal message _ =>
      cases done
      exact ⟨.missing needsRenewal message,fun _ => rfl,rfl⟩
    next => cases done

/-- The loop of `SetRoutes` that loads the certificates. -/
theorem load_reaches {provider : Option (CertificateProvider S A K)} {routes loaded : List (Route K)}
    (done : forRoutes (CertificateProvider.loadCertificate provider) answers routes st = (st',some loaded))
    (loading : s.setter = .loading base pre.length fallback) (objects : s.objects = pre ++ routes) :
    (machine toLower provider.isSome).Reaches s
      { s with objects := pre ++ loaded,setter := .loading base (pre ++ loaded).length fallback } := by
  induction routes generalizing answers st loaded pre s with
  | nil =>
    cases done
    rw [List.append_nil] at objects
    rw [List.append_nil,← loading,← objects]
    exact .refl
  | cons route rest ih =>
    unfold forRoutes at done
    split at done
    · cases done
    next middle route' here =>
    split at done
    · cases done
    next final rest' later =>
    cases done
    obtain ⟨existing,answered,rfl⟩ := loadCertificate_loaded here
    have step : Step toLower provider.isSome s (.load existing) _ := .load loading (by simp [objects]) answered
    rw [objects,modify_middle] at step
    refine (step.reaches (by simp)).trans ?_
    have moved : pre ++ Swaps.loaded provider.isSome existing route :: rest =
        (pre ++ [Swaps.loaded provider.isSome existing route]) ++ rest := by simp
    have counted : Setting.loading base (pre.length + 1) fallback =
        .loading base (pre ++ [Swaps.loaded provider.isSome existing route]).length fallback := by simp
    simpa using ih later (s := { s with
      objects := pre ++ Swaps.loaded provider.isSome existing route :: rest
      setter := .loading base (pre.length + 1) fallback }) counted moved

/-- The cells hold a table whose routes were made from `base` on. -/
structure Holds (s : State C L K) (base : Nat) (table : RouteTable K) : Prop where
  objects : ∃ pre post, s.objects = pre ++ table.routes ++ post ∧ pre.length = base
  routes : s.routes = List.range' base table.routes.length
  domains : s.domains = fun key => (table.domains key).map (base + ·)
  fallback : s.fallback = table.fallback.map (base + ·)
  listed : ∀ key i, table.domains key = some i → i < table.routes.length
  inRange : ∀ i, table.fallback = some i → i < table.routes.length

structure Quiet (s : State C L K) : Prop where
  setter : s.setter = .idle
  checkers : ∀ c, s.checkers c = .idle

def State.brought (s : State C L K) (loaded : List (Route K)) (fallback : Option Nat) : State C L K :=
  { s with objects := s.objects ++ loaded,setter := .loading s.objects.length (s.objects ++ loaded).length fallback }

section Calls

variable {provider : Option (CertificateProvider S A K)} {proxy proxy' : Proxy S K} {loaded : List (Route K)}

theorem brought_reaches (quiet : Quiet s) (inRange : ∀ i ∈ fallback, i < newRoutes.length)
    (done : forRoutes (CertificateProvider.loadCertificate provider) answers newRoutes st = (st',some loaded)) :
    (machine toLower provider.isSome).Reaches s (s.brought loaded fallback) := by
  have begun : Step toLower provider.isSome s (.setRoutes newRoutes fallback) _ := .setRoutes quiet.setter inRange
  exact (begun.reaches (by simp)).trans (load_reaches done rfl rfl)

/-- An accepted call ends with its table in the cells. -/
theorem setRoutes_reaches (quiet : Quiet s) (inRange : ∀ i ∈ fallback, i < newRoutes.length)
    (done : Proxy.setRoutes toLower provider answers newRoutes fallback proxy = (proxy',.ok ())) :
    ∃ t, (machine toLower provider.isSome).Reaches s t ∧ Quiet t ∧ t.lookups = s.lookups ∧
      Holds t s.objects.length proxy'.table := by
  unfold Proxy.setRoutes at done
  split at done
  · cases done
  next st loaded loads =>
  split at done
  · cases done
  next domains updated =>
  cases done
  have accepted : RouteMap.update toLower ((s.objects ++ loaded).drop s.objects.length) = .ok domains := by
    rw [List.drop_left]
    exact updated
  have mapped : Step toLower provider.isSome (s.brought loaded fallback) .storeDomains _ := .storeDomains rfl accepted
  have stored := (brought_reaches quiet inRange loads).trans (mapped.reaches (by simp))
  refine ⟨_,(stored.trans (Step.reaches (.storeRoutes rfl) (by simp))).trans (Step.reaches (.storeFallback rfl) (by simp)),
    ⟨rfl,quiet.checkers⟩,rfl,⟨s.objects,[],?_,rfl⟩,?_,rfl,rfl,fun key i owned => ?_,fun i set => ?_⟩
  · simp [State.brought]
  · simp [State.brought]
  · obtain ⟨⟨route,there,_⟩,_⟩ := (RouteMap.update_eq_some_iff updated).mp owned
    exact (List.getElem?_eq_some_iff.mp there).1
  · have config := forRoutes_config (fun _ _ _ _ _ here => CertificateProvider.loadCertificate_config here) loads
    have same : loaded.length = newRoutes.length := by simpa using congrArg List.length config
    exact same ▸ inRange i set

/-- A refused one leaves the cells alone. -/
theorem setRoutes_refused_reaches (quiet : Quiet s) (inRange : ∀ i ∈ fallback, i < newRoutes.length)
    (done : Proxy.setRoutes toLower provider answers newRoutes fallback proxy = (proxy',.err message))
    (holds : Holds s base proxy.table) :
    ∃ t, (machine toLower provider.isSome).Reaches s t ∧ Quiet t ∧ t.lookups = s.lookups ∧ Holds t base proxy'.table := by
  unfold Proxy.setRoutes at done
  split at done
  · cases done
  next st loaded loads =>
  split at done
  · next refused =>
    cases done
    have invalid : RouteMap.update toLower ((s.objects ++ loaded).drop s.objects.length) = .error message := by
      rw [List.drop_left]
      exact refused
    have ended : Step toLower provider.isSome (s.brought loaded fallback) .storeDomains _ := .invalid rfl invalid
    refine ⟨_,(brought_reaches quiet inRange loads).trans (ended.reaches (by simp)),⟨rfl,quiet.checkers⟩,rfl,?_⟩
    obtain ⟨⟨pre,post,objects,length⟩,routes,domains,fallback,listed,inside⟩ := holds
    refine ⟨⟨pre,post ++ loaded,?_,length⟩,routes,domains,fallback,listed,inside⟩
    exact (congrArg (· ++ loaded) objects).trans (List.append_assoc ..)
  · cases done

/-- The two stores of a check. -/
theorem store_reaches (storing : s.checkers c = .storing pre.length cert status rest)
    (objects : s.objects = pre ++ route :: post) :
    (machine toLower provided).Reaches s
      (State.setChecker { s with objects := pre ++ route.setCertificate cert status :: post } c (.turn provided rest)) := by
  have stored : Step toLower provided s (.storeCertificate c) _ := .storeCertificate storing
  have marked : Step toLower provided ((s.setCertificate pre.length cert).setChecker c (.marking pre.length status rest))
    (.storeStatus c) _ := .storeStatus (State.setChecker_self ..)
  have reaches := (stored.reaches (by simp)).trans (marked.reaches (by simp))
  simpa [State.setCertificate,State.setCertificateStatus,State.setChecker,Route.setCertificate,objects,modify_middle] using reaches

/-- One turn of the loop of `CheckCertificates`. -/
theorem checkCertificate_reaches (done : CertificateProvider.checkCertificate provider a route st = (st',some route'))
    (turned : s.checkers c = .turn provider.isSome (pre.length :: rest)) (objects : s.objects = pre ++ route :: post) :
    (machine toLower provider.isSome).Reaches s
      (State.setChecker { s with objects := pre ++ route' :: post } c (.turn provider.isSome rest)) := by
  -- Any answer leads to the two stores.
  have stored {cert : Option (TlsCertificate K)} {status : CertificateStatus}
      (reaches : (machine toLower provider.isSome).Reaches s (s.setChecker c (.storing pre.length cert status rest))) :
      (machine toLower provider.isSome).Reaches s
        (State.setChecker { s with objects := pre ++ route.setCertificate cert status :: post } c
          (.turn provider.isSome rest)) := by
    have more : (machine toLower provider.isSome).Reaches (s.setChecker c (.storing pre.length cert status rest)) _ :=
      store_reaches (State.setChecker_self ..) objects
    simpa [State.setChecker] using reaches.trans more
  unfold CertificateProvider.checkCertificate at done
  split at done
  next =>
    cases done
    have marked : Step toLower false s (.storeStatus c) _ := .storeStatus turned
    simpa [State.setCertificateStatus,State.setChecker,objects,modify_middle] using marked.reaches (by simp)
  next p =>
    unfold CertificateProvider.updateCert at done
    dsimp only at done
    split at done
    next cert _ =>
      cases done
      exact stored (Step.reaches (.got turned) (by simp))
    next message _ =>
      obtain ⟨existing,answered,rfl⟩ := loadCertificate_loaded done
      obtain ⟨⟨cert,status⟩,answer⟩ := Option.isSome_iff_exists.mp (answered rfl)
      have failed : Step toLower true s (.got c (.err message)) _ := .failed turned
      have found : Step toLower true (s.setChecker c (.loading pre.length rest)) (.gotExisting c existing) _ :=
        .gotExisting (State.setChecker_self ..) answer
      have both := (failed.reaches (by simp)).trans (found.reaches (by simp))
      simp only [State.setChecker,Function.update_idem] at both
      simp only [loaded,answer,Option.isSome_some,if_true]
      exact stored both
    next => cases done

/-- The whole loop. -/
theorem check_reaches {routes routes' : List (Route K)}
    (done : forRoutes (CertificateProvider.checkCertificate provider) answers routes st = (st',some routes'))
    (turned : s.checkers c = .turn provider.isSome (List.range' pre.length routes.length))
    (objects : s.objects = pre ++ routes ++ post) :
    (machine toLower provider.isSome).Reaches s
      (State.setChecker { s with objects := pre ++ routes' ++ post } c .idle) := by
  induction routes generalizing answers st routes' pre s with
  | nil =>
    cases done
    have idle : s.setChecker c .idle = s := by
      simp only [State.setChecker]
      rw [show (.idle : Checking K) = s.checkers c from turned.symm,Function.update_eq_self]
    rw [← objects]
    change (machine toLower provider.isSome).Reaches s (s.setChecker c .idle)
    rw [idle]
    exact .refl
  | cons route rest ih =>
    unfold forRoutes at done
    split at done
    · cases done
    next middle route' here =>
    split at done
    · cases done
    next final rest' later =>
    cases done
    rw [List.length_cons,List.range'_succ] at turned
    rw [List.append_assoc,List.cons_append] at objects
    have first : (machine toLower provider.isSome).Reaches s _ := checkCertificate_reaches here turned objects
    have moved : pre ++ route' :: (rest ++ post) = (pre ++ [route']) ++ rest ++ post := by simp
    have again : (State.setChecker { s with objects := pre ++ route' :: (rest ++ post) } c
        (.turn provider.isSome (List.range' (pre.length + 1) rest.length))).checkers c =
        .turn provider.isSome (List.range' (pre ++ [route']).length rest.length) := by simp
    have more := ih later again moved
    simpa [State.setChecker] using first.trans more

/-- A call of `CheckCertificates` ends with its certificates in the cells. -/
theorem checkCertificates_reaches [Inhabited C] (quiet : Quiet s) (holds : Holds s base proxy.table)
    (done : Proxy.checkCertificates provider answers proxy = (proxy',.ok ())) :
    ∃ t, (machine toLower provider.isSome).Reaches s t ∧ Quiet t ∧ t.lookups = s.lookups ∧ Holds t base proxy'.table := by
  unfold Proxy.checkCertificates at done
  split at done
  · cases done
  next st routes loop =>
  cases done
  obtain ⟨⟨pre,post,objects,rfl⟩,pointers,domains,fallback,listed,inRange⟩ := holds
  have same : routes.length = proxy.table.routes.length := by
    have config := forRoutes_config (fun _ _ _ _ _ here => CertificateProvider.checkCertificate_config here) loop
    simpa using congrArg List.length config
  have begun : Step toLower provider.isSome s (.check default) _ := .check (quiet.checkers default)
  have looped : (machine toLower provider.isSome).Reaches (s.setChecker default (.turn provider.isSome s.routes)) _ :=
    check_reaches loop (by rw [State.setChecker_self,pointers]) objects
  refine ⟨_,(begun.reaches (by simp)).trans looped,⟨quiet.setter,fun c => ?_⟩,rfl,
    ⟨pre,post,rfl,rfl⟩,same ▸ pointers,domains,fallback,same ▸ listed,same ▸ inRange⟩
  by_cases own : c = default
  · rw [own,State.setChecker_self]
  · rw [State.setChecker_other _ _ own]
    exact (State.setChecker_other _ _ own).trans (quiet.checkers c)

/-- Whatever the calls do to the coarse model, the fine one can do. -/
theorem call_reaches [Inhabited C] (quiet : Quiet s) (holds : Holds s base proxy.table) (call : ProxyCall A K)
    (inRange : ∀ answers newRoutes fallback, call = .setRoutes answers newRoutes fallback →
      ∀ i ∈ fallback, i < newRoutes.length)
    (enabled : (proxy.call toLower provider call).2 ≠ .crashed) :
    ∃ t base, (machine toLower provider.isSome).Reaches s t ∧ Quiet t ∧ t.lookups = s.lookups ∧
      Holds t base (proxy.call toLower provider call).1.table := by
  cases call with
  | setRoutes answers newRoutes fallback =>
    have inRange := inRange _ _ _ rfl
    rcases done : Proxy.setRoutes toLower provider answers newRoutes fallback proxy with ⟨proxy',outcome⟩
    simp only [Proxy.call,done] at enabled ⊢
    cases outcome with
    | ok value =>
      obtain ⟨t,reached⟩ := setRoutes_reaches quiet inRange done
      exact ⟨t,_,reached⟩
    | err message =>
      obtain ⟨t,reached⟩ := setRoutes_refused_reaches quiet inRange done holds
      exact ⟨t,_,reached⟩
    | crashed => exact absurd rfl enabled
  | checkCertificates answers =>
    rcases done : Proxy.checkCertificates provider answers proxy with ⟨proxy',outcome⟩
    simp only [Proxy.call,done] at enabled ⊢
    rcases Proxy.checkCertificates_cases provider answers proxy with ⟨st,crashed⟩ | ⟨st,routes,_,ok⟩
    · rw [crashed] at done
      cases done
      exact absurd rfl enabled
    · rw [ok] at done
      cases done
      obtain ⟨t,reached⟩ := checkCertificates_reaches quiet holds ok
      exact ⟨t,_,reached⟩

end Calls

section Lookups

variable {table : RouteTable K}

omit [DecidableEq C] [DecidableEq L] in
theorem Holds.deref (holds : Holds s base table) (inside : i < table.routes.length) :
    s.objects[base + i]? = table.routes[i]? := by
  obtain ⟨pre,post,objects,rfl⟩ := holds.objects
  rw [objects,List.append_assoc,List.getElem?_append_right (Nat.le_add_right ..),Nat.add_sub_cancel_left,
    List.getElem?_append_left inside]

def State.pointerFor (toLower : String → String) (s : State C L K) (host : String) : Option Nat :=
  Table.routeFor toLower ⟨s.domains,s.fallback⟩ host

omit [DecidableEq C] [DecidableEq L] in
theorem Holds.routeFor (holds : Holds s base table) (host : String) :
    table.view.routeFor toLower host = (s.pointerFor toLower host).bind (s.objects[·]?) := by
  simp only [State.pointerFor,Table.routeFor,Routes.routeFor,Routes.get,RouteTable.view,holds.domains,holds.fallback]
  cases owned : table.domains (toLower host) with
  | some i =>
    have inside := holds.listed _ _ owned
    have there := List.getElem?_eq_getElem inside
    simp only [Option.map_some,Option.bind_some,holds.deref inside,there]
  | none =>
    cases set : table.fallback with
    | none => simp
    | some i => simp [holds.deref (holds.inRange _ set)]

omit [DecidableEq C] [DecidableEq L] in
/-- Every pointer that a lookup finds leads to a route. -/
theorem Holds.found (holds : Holds s base table) (pointed : s.pointerFor toLower host = some pointer) :
    ∃ route, s.objects[pointer]? = some route := by
  have reached {i : Nat} (inside : i < table.routes.length) : ∃ route, s.objects[base + i]? = some route :=
    ⟨_,(holds.deref inside).trans (List.getElem?_eq_getElem inside)⟩
  simp only [State.pointerFor,Table.routeFor,holds.domains,holds.fallback] at pointed
  cases owned : table.domains (toLower host) with
  | some i =>
    simp only [owned,Option.map_some,Option.some.injEq] at pointed
    exact pointed ▸ reached (holds.listed _ _ owned)
  | none =>
    simp only [owned,Option.map_none] at pointed
    obtain ⟨i,set,rfl⟩ := Option.map_eq_some_iff.mp pointed
    exact reached (holds.inRange _ set)

variable (toLower provided) in
/-- A lookup that nothing disturbs finds what is in the cells. -/
theorem lookup_reaches (query : Query) (holds : Holds s base table) (idle : s.lookups l = .idle) (host : String)
    (supported : ¬(query = .certificate ∧ provided = false)) :
    ∃ u, (machine toLower provided).Reaches s u ∧
      (s.pointerFor toLower host = none ∧ u.lookups l = .answered query host none query.nothing ∨
        ∃ pointer route, s.pointerFor toLower host = some pointer ∧ s.objects[pointer]? = some route ∧
          u.lookups l = .answered query host (some pointer) (query.answer pointer route)) := by
  have asked : (machine toLower provided).Reaches s (s.setLookup l (.asked query host)) := by
    have enabled : (machine toLower provided).Enabled s (.ask l query host) := by simp [machine,enabled,idle]
    have next : next toLower provided s (.ask l query host) = s.setLookup l (.asked query host) := by
      simp only [next,if_neg supported]
    exact next ▸ .single enabled
  -- With the pointer in hand, the route is read.
  have read {v : State C L K} {pointer : Nat} (reached : (machine toLower provided).Reaches s v) (objects : v.objects = s.objects)
      (found : v.lookups l = .found query host pointer) (pointed : s.pointerFor toLower host = some pointer) :
      ∃ u, (machine toLower provided).Reaches s u ∧ ∃ route, s.objects[pointer]? = some route ∧
        u.lookups l = .answered query host (some pointer) (query.answer pointer route) := by
    obtain ⟨route,there⟩ := holds.found pointed
    have answered : Step toLower provided v (.readRoute l) _ := .answer found (objects ▸ there)
    exact ⟨_,reached.trans (answered.reaches (by simp)),route,there,State.setLookup_self ..⟩
  cases owned : s.domains (toLower host) with
  | some pointer =>
    have hit : Step toLower provided (s.setLookup l (.asked query host)) (.readDomains l) _ :=
      .hit (State.setLookup_self ..) owned
    have pointed : s.pointerFor toLower host = some pointer := by simp only [State.pointerFor,Table.routeFor,owned]
    obtain ⟨u,reaches,route,rest⟩ := read (asked.trans (hit.reaches (by simp))) rfl (State.setLookup_self ..) pointed
    exact ⟨u,reaches,.inr ⟨pointer,route,pointed,rest⟩⟩
  | none =>
    have miss : Step toLower provided (s.setLookup l (.asked query host)) (.readDomains l) _ :=
      .miss (State.setLookup_self ..) owned
    have missed := asked.trans (miss.reaches (by simp))
    cases set : s.fallback with
    | some pointer =>
      have fallen : (machine toLower provided).Reaches s _ :=
        missed.trans (Step.reaches (.fallBack (State.setLookup_self ..) set) (by simp))
      have pointed : s.pointerFor toLower host = some pointer := by simp only [State.pointerFor,Table.routeFor,owned,set]
      obtain ⟨u,reaches,route,rest⟩ := read fallen rfl (State.setLookup_self ..) pointed
      exact ⟨u,reaches,.inr ⟨pointer,route,pointed,rest⟩⟩
    | none =>
      refine ⟨_,missed.trans (Step.reaches (.nothing (State.setLookup_self ..) set) (by simp)),.inl ⟨?_,State.setLookup_self ..⟩⟩
      simp only [State.pointerFor,Table.routeFor,owned,set]

theorem routeForDomain_reaches (holds : Holds s base table) (idle : s.lookups l = .idle) (host : String) :
    ∃ u route found, (machine toLower provided).Reaches s u ∧ u.lookups l = .answered .route host route (.route found) ∧
      found.bind (s.objects[·]?) = table.view.routeForDomain toLower host := by
  obtain ⟨u,reaches,⟨missing,answered⟩ | ⟨pointer,route,pointed,there,answered⟩⟩ :=
    lookup_reaches toLower provided .route holds idle host (by simp)
  · refine ⟨u,_,_,reaches,answered,?_⟩
    rw [Routes.routeForDomain,holds.routeFor,missing]
    rfl
  · refine ⟨u,_,_,reaches,answered,?_⟩
    rw [Routes.routeForDomain,holds.routeFor,pointed,Option.bind_some,there]
    dsimp only
    split
    · rfl
    · exact there

theorem certificateForClient_reaches {provider : Option (CertificateProvider S A K)} (provides : provider.isSome = true)
    (holds : Holds s base table) (idle : s.lookups l = .idle) (host : String) :
    ∃ u route cert, (machine toLower provider.isSome).Reaches s u ∧
      u.lookups l = .answered .certificate host route (.certificate cert) ∧
      table.view.certificateForClient toLower provider host = .ok cert := by
  obtain ⟨p,rfl⟩ := Option.isSome_iff_exists.mp provides
  obtain ⟨u,reaches,⟨missing,answered⟩ | ⟨pointer,route,pointed,there,answered⟩⟩ :=
    lookup_reaches toLower true .certificate holds idle host (by simp)
  · refine ⟨u,_,_,reaches,answered,?_⟩
    rw [Routes.certificateForClient,holds.routeFor,missing]
    rfl
  · refine ⟨u,_,_,reaches,answered,?_⟩
    rw [Routes.certificateForClient,holds.routeFor,pointed,Option.bind_some,there]

theorem certificateForClient_refused {provider : Option (CertificateProvider S A K)} (absent : provider = none)
    (idle : s.lookups l = .idle) (host : String) (table : RouteTable K) :
    ∃ u, (machine toLower provider.isSome).Reaches s u ∧ u.lookups l = .refused ∧
      table.view.certificateForClient toLower provider host =
        .error "this manager does not support obtaining certificates" := by
  subst absent
  have enabled : (machine toLower false).Enabled s (.ask l .certificate host) := by simp [machine,enabled,idle]
  refine ⟨_,.single enabled,?_,rfl⟩
  simp [machine,next]

end Lookups

/-- The fallback is one of the routes of its call, as `config.Parse` leaves it. -/
def FallsInside (_ : Proxy S K) : ProxyCall A K → Prop
  | .setRoutes _ newRoutes fallback => ∀ i ∈ fallback, i < newRoutes.length
  | .checkCertificates _ => True

omit [DecidableEq C] [DecidableEq L] in
theorem initial_holds : Holds (initial : State C L K) 0 .empty :=
  ⟨⟨[],[],rfl,rfl⟩,rfl,rfl,rfl,nofun,nofun⟩

/-- The fine model refines nothing away: every run of whole calls is one of its runs, in which each
call goes through its steps undisturbed, and lookups then answer as in the table of the calls. -/
theorem calls_refine [Inhabited C] (toLower : String → String) (provider : Option (CertificateProvider S A K)) (st : S)
    (calls : List (ProxyCall A K)) (proxy : Proxy S K)
    (run : ((Proxy.machine toLower provider).restrict FallsInside).Run ⟨st,.empty⟩ calls proxy) :
    ∃ t : State C L K, (machine toLower provider.isSome).Reaches initial t ∧ (∃ base, Holds t base proxy.table) ∧
      ∀ l host,
        (∃ u route found, (machine toLower provider.isSome).Reaches t u ∧
          u.lookups l = .answered .route host route (.route found) ∧
          found.bind (t.objects[·]?) = proxy.table.view.routeForDomain toLower host) ∧
        (provider.isSome = true → ∃ u route cert, (machine toLower provider.isSome).Reaches t u ∧
          u.lookups l = .answered .certificate host route (.certificate cert) ∧
          proxy.table.view.certificateForClient toLower provider host = .ok cert) ∧
        (provider = none → ∃ u, (machine toLower provider.isSome).Reaches t u ∧ u.lookups l = .refused ∧
          proxy.table.view.certificateForClient toLower provider host =
            .error "this manager does not support obtaining certificates") := by
  have reached := run.invariant (fun proxy => ∃ (t : State C L K) (base : Nat), (machine toLower provider.isSome).Reaches initial t ∧
    Quiet t ∧ t.lookups = (fun _ => .idle) ∧ Holds t base proxy.table) ?_
      ⟨initial,0,.refl,⟨rfl,fun _ => rfl⟩,rfl,initial_holds⟩
  · obtain ⟨t,base,reaches,quiet,idle,holds⟩ := reached
    exact ⟨t,reaches,⟨base,holds⟩,fun l host => ⟨routeForDomain_reaches holds (congrFun idle l) host,
      fun provides => certificateForClient_reaches provides holds (congrFun idle l) host,
      fun absent => certificateForClient_refused absent (congrFun idle l) host proxy.table⟩⟩
  · rintro u call ⟨s,base,reaches,quiet,idle,holds⟩ ⟨enabled,inside⟩
    obtain ⟨t,base',more,quiet',same,holds'⟩ := call_reaches quiet holds call
      (by rintro answers newRoutes fallback rfl; exact inside) enabled
    exact ⟨t,base',reaches.trans more,quiet',same.trans idle,holds'⟩

namespace Sample

open Centauri.Sample (asciiLower onDemand refusedReload reloaded)

/-- After a reload that is refused, a handshake still gets the certificate that was obtained before. -/
theorem refusedReload_refined : ∃ t u : State Unit Unit String, ∃ route, (machine asciiLower true).Reaches initial t ∧
    (machine asciiLower true).Reaches t u ∧
    u.lookups () = .answered .certificate "Example.com" route (.certificate (some ⟨"example.com",[]⟩)) := by
  have run : ((Proxy.machine asciiLower (some onDemand)).restrict FallsInside).Run ⟨(),.empty⟩ refusedReload reloaded :=
    .cons ⟨by decide +kernel,by simp [FallsInside]⟩ (.cons ⟨by decide +kernel,trivial⟩
      (.cons ⟨by decide +kernel,by simp [FallsInside]⟩ .nil))
  obtain ⟨t,reaches,_,answers⟩ := calls_refine (C := Unit) (L := Unit) asciiLower (some onDemand) () refusedReload reloaded run
  obtain ⟨u,route,cert,later,answered,same⟩ := (answers () "Example.com").2.1 rfl
  have held : reloaded.table.view.certificateForClient asciiLower (some onDemand) "Example.com" =
      .ok (some ⟨"example.com",[]⟩) := by decide +kernel
  obtain rfl := Except.ok.inj (same.symm.trans held)
  exact ⟨t,u,route,reaches,later,answered⟩

end Sample

end Centauri.Swaps
